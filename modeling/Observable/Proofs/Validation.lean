import Observable.Proofs.FirstObserver
import Observable.Proofs.Rounds

/-!
# Validation

A property is built with a value that nobody has validated. Everything that is written to it after
that was returned by its validator, whoever wrote it: an operation, a round of the observable that
the property is bound to, or a callback of either (`Config.Run.returns_of_written?`). The validator
is the one with which the property was built (`Config.Run.validator?_kept`), and it may itself
perform operations that write the same property.

So what holds of every value that the validator can return (`Config.CanReturn`) holds of the
property's value from its first write on, and of the values that its rounds announce
(`Config.Run.validated`).
-/

namespace Observable

variable {V : Type}

/-- A script may end with an answer, given the right replies to the operations that it performs. -/
inductive Script.Ends {ρ : Role} : Script V ρ → Answer V ρ → Prop
  | stop (a : Answer V ρ) : Ends (.stop a) a
  | emit {e : Event V} {rest : Script V ρ} {a : Answer V ρ} (hrest : Ends rest a) :
    Ends (.emit e rest) a
  | perform {op : Op V} {next : Reply V → Script V ρ} {r : Reply V} {a : Answer V ρ}
      (hnext : Ends (next r) a) : Ends (.perform op next) a

/-! ## Validators -/

namespace Body

/-- The validator of a property. -/
def validator? : Body V → Option (V → Script V .validator)
  | .property p => some p.validate
  | _ => none

theorem isFixed_validator? : IsFixed (validator? (V := V)) where
  store _ b := by cases b <;> rfl
  follow _ b := by cases b <;> rfl

end Body

namespace World

/-- The validator of a property that lives. -/
def validator? (w : World V) (i : Id) : Option (V → Script V .validator) :=
  (w.body? i).bind Body.validator?

theorem validator?_of_property? {w : World V} {i : Id} {p : Property V}
    (hp : w.property? i = some p) : w.validator? i = some p.validate := by
  unfold validator?
  rw [body?_of_property? hp]
  rfl

theorem alive_of_validator? {w : World V} {i : Id} {f : V → Script V .validator}
    (hf : w.validator? i = some f) : w.alive i = true := by
  obtain ⟨b, hb, _⟩ := Option.bind_eq_some_iff.1 hf
  exact alive_iff_body?.2 ⟨b, hb⟩

/-- A property that an edit makes was asked for with its value and its validator. -/
theorem Edit.built {w w' : World V} {held : List Id} {a : Action V} (hedit : w.Edit held a w')
    {i : Id} (hsize : w.objects.size ≤ i) {f : V → Script V .validator}
    (hf : w'.validator? i = some f) :
    ∃ name value report, a = .property name value f report ∧ w.objects.size = i ∧
      w'.value? i = some value := by
  have halive := alive_of_validator? hf
  have hlt := lt_size_of_alive halive
  have hdead : w.body? i = none := by
    unfold World.body?
    rw [object?_of_size_le hsize]
    rfl
  cases hedit with
  | property name value validate report =>
    have hbody := (outlived_assign ..).body i halive
    rw [body?_create] at hbody
    by_cases hi : i = w.objects.size
    · rw [if_pos hi] at hbody
      have hvalidate : some validate = some f := by
        rw [← hf, World.validator?, hbody]
        rfl
      cases hvalidate
      refine ⟨name, value, report, rfl, hi.symm, ?_⟩
      rw [value?_eq_body?, hbody]
      rfl
    · rw [if_neg hi, hdead] at hbody
      rw [World.validator?, hbody] at hf
      cases hf
  | listenerSet name =>
    -- What is made is a listener set, which has no validator.
    have hbody := (outlived_assign ..).body i halive
    rw [body?_create] at hbody
    rw [World.validator?, hbody] at hf
    by_cases hi : i = w.objects.size
    · rw [if_pos hi] at hf
      cases hf
    · rw [if_neg hi, hdead] at hf
      cases hf
  | read | drain => exact absurd hlt (Nat.not_lt_of_le hsize)
  | listener =>
    rw [size_objects_assign] at hlt
    exact absurd hlt (Nat.not_lt_of_le hsize)
  | channel =>
    rw [size_objects_assign, size_objects_assign] at hlt
    exact absurd hlt (Nat.not_lt_of_le hsize)
  | view | copy | weak =>
    rw [size_objects_assign] at hlt
    exact absurd hlt (Nat.not_lt_of_le hsize)
  | drop =>
    rw [size_objects_forget] at hlt
    exact absurd hlt (Nat.not_lt_of_le hsize)
  | bind | unbind =>
    exact absurd
      (Nat.lt_of_lt_of_eq hlt ((size_objects_alter ..).trans (size_objects_alter ..)))
      (Nat.not_lt_of_le hsize)
  | add | remove =>
    exact absurd (Nat.lt_of_lt_of_eq hlt (size_objects_alter ..)) (Nat.not_lt_of_le hsize)

end World

namespace Config

/-- A property is to be built with a value, a validator and the number `i`. -/
def Builds (c : Config V) (i : Id) (value : V) (f : V → Script V .validator) : Prop :=
  ∃ name report k, c.focus = .operate (.act (.property name value f report)) k ∧
    c.state.world.objects.size = i

variable [BEq V]

theorem Effect.built {c : Config V} {w : World V} (h : c.Effect w) {i : Id}
    (hsize : c.state.world.objects.size ≤ i) {f : V → Script V .validator}
    (hf : w.validator? i = some f) : ∃ value, c.Builds i value f ∧ w.value? i = some value := by
  have halive := World.alive_of_validator? hf
  have hlt := World.lt_size_of_alive halive
  cases h with
  | same | count | send => exact absurd hlt (Nat.not_lt_of_le hsize)
  | store =>
    exact absurd (Nat.lt_of_lt_of_eq hlt (World.size_objects_alter ..)) (Nat.not_lt_of_le hsize)
  | release _ _ hsame =>
    rw [hsame] at hlt
    exact absurd hlt (Nat.not_lt_of_le hsize)
  | edit hfocus hedit =>
    obtain ⟨name, value, report, rfl, hi, hvalue⟩ := hedit.built hsize hf
    exact ⟨value, ⟨name, report, _, hfocus, hi⟩, hvalue⟩
  | wrap _ houtlived _ _ =>
    -- What is made is a binding, which has no validator.
    rw [World.validator?, houtlived.body i halive, body?_wrap] at hf
    split at hf
    · cases hf
    · rw [World.body?, World.object?_of_size_le hsize] at hf
      cases hf

/-- The validator of a property is never replaced. -/
theorem Run.validator?_kept {allowed : Op V → Prop} {later before : List (Config V)}
    {c₀ c : Config V} (hrun : Run allowed (later ++ c₀ :: before) c) {i : Id}
    (hlt : i < c₀.state.world.objects.size) {f : V → Script V .validator}
    (hf : c.state.world.validator? i = some f) : c₀.state.world.validator? i = some f := by
  have halive := World.alive_of_validator? hf
  exact (hrun.bind_body? Body.isFixed_validator? hlt halive).symm.trans hf

/-! ## What validators return -/

/-- The validator `f` has been called, and it returns `v` now. -/
def Returns (past : List (Config V)) (c : Config V) (f : V → Script V .validator) (v : V) : Prop :=
  ∃ x j k, c.focus = .run (@Script.stop V .validator (.ok v)) (.validating j k) ∧
    Since (c :: past) (.validating j k) fun c₀ => c₀.focus = .run (f x) (.validating j k)

/-- In some run, a property whose validator is `f` has it return `v`. -/
def CanReturn (f : V → Script V .validator) (v : V) : Prop :=
  ∃ past c, Run (fun _ => True) past c ∧ Returns past c f v

/-- Whatever a frame waits for a validator to return, the validator of the property that is updated
was called for it. -/
theorem Run.validating {allowed : Op V → Prop} {past : List (Config V)} {c : Config V}
    (hrun : Run allowed past c) {j : Id} {k : Stack V .update} (hwaits : c.Waits (.validating j k)) :
    Since (c :: past) (.validating j k) fun c₀ => ∃ p v,
      c₀.state.world.property? k.updated = some p ∧
        c₀.focus = .run (p.validate v) (.validating j k) := by
  induction hrun with
  | start hop => cases List.mem_singleton.1 hwaits
  | step hrun hstep ih =>
    rcases (Transition.of_step hstep).pushes hwaits with hbefore | hpushes
    · exact (ih hbefore).cons hwaits
    · cases hpushes with
      | validating hp hcall => exact .of_last _ ⟨_, _, hp, hcall⟩
  | perform hrun hreply hop ih => cases List.mem_singleton.1 hwaits

/-- Whatever is written to a property, its validator has returned. -/
theorem Run.returns_of_written? {allowed : Op V → Prop} {past : List (Config V)} {c : Config V}
    (hrun : Run allowed past c) {i : Id} {v : V} (hwritten : c.written? = some (i, v))
    {f : V → Script V .validator} (hf : c.state.world.validator? i = some f) :
    Returns past c f v := by
  obtain ⟨old, _, ⟨j, k, hfocus, rfl, _⟩ | ⟨k, hfocus⟩⟩ := written?_cases hwritten
  · have hwaits : c.Waits (.validating j k) := by
      unfold Waits
      rw [hfocus]
      exact Stack.mem_tails_self _
    obtain ⟨later, c₀, before, hpast, ⟨p, x, hp, hcall⟩, hlater⟩ := hrun.validating hwaits
    -- The property has the same validator now as when it was called.
    have hvalidate : p.validate = f := by
      have hf₀ := World.validator?_of_property? hp
      cases later with
      | nil =>
        obtain ⟨rfl, rfl⟩ := List.cons.inj hpast
        exact Option.some.inj (hf₀.symm.trans hf)
      | cons d later =>
        obtain ⟨rfl, rfl⟩ := List.cons.inj hpast
        have hlt := World.lt_size_of_alive (World.alive_of_validator? hf₀)
        exact Option.some.inj (hf₀.symm.trans (hrun.validator?_kept hlt hf))
    rw [hvalidate] at hcall
    exact ⟨x, j, k, hfocus, later, c₀, before, hpast, hcall, hlater⟩
  · -- What is converted is a binding, which has no validator.
    have hfits := hrun.sound.frames
    rw [hfocus] at hfits
    obtain ⟨b, hb⟩ := World.shape?_eq_binding_iff.1 hfits.1
    unfold World.validator? at hf
    rw [World.body?_of_binding? hb] at hf
    cases hf

/-! ## How validators end -/

/-- A validator runs what is left of `script`, or waits for the reply to an operation that it has
performed. -/
def Runs (c : Config V) (script : Script V .validator) (k : Stack V (.answer .validator)) : Prop :=
  (∃ rest, c.focus = .run rest k ∧ ∀ a, rest.Ends a → script.Ends a) ∨
    ∃ next, c.Waits (.script next k) ∧ ∀ r a, (next r).Ends a → script.Ends a

/-- A validator that has answered waits no longer. -/
theorem Transition.not_waits_of_stop {c d : Config V} (hmove : c.Transition d) {j : Id}
    {k : Stack V .update} {a : Answer V .validator}
    (hfocus : c.focus = .run (.stop a) (.validating j k)) : ¬ d.Waits (.validating j k) := by
  intro hwaits
  -- Only other kinds of frames come in its place.
  have hbelow : ⟨_, .validating j k⟩ ∈ k.tails := by
    cases hmove with
    | gone | unchanged =>
      cases hfocus
      exact hwaits
    | write =>
      cases hfocus
      have hupdating := (List.mem_cons.1 hwaits).resolve_left fun heq => by cases heq
      exact (List.mem_cons.1 hupdating).resolve_left fun heq => by cases heq
    | reject s i cause k =>
      cases hfocus
      revert hwaits
      refine State.fail_cases (P := fun d => d.Waits (.validating j k) → _) id ?_
      intro p report _ _ hwaits
      exact (List.mem_cons.1 hwaits).resolve_left fun heq => by cases heq
    | _ => cases hfocus
  exact absurd (Stack.depth_le hbelow) (Nat.not_succ_le_self k.depth)

/-- While a validator has not answered, what is left of it can only end as the whole of it can. -/
theorem Runs.transition {c d : Config V} {script : Script V .validator} {j : Id}
    {k : Stack V .update} (hc : c.Runs script (.validating j k)) (hmove : c.Transition d)
    (hwaits : d.Waits (.validating j k)) : d.Runs script (.validating j k) := by
  rcases hc with ⟨rest, hfocus, hends⟩ | ⟨next, hnext, hends⟩
  · cases rest with
    | stop a => exact absurd hwaits (hmove.not_waits_of_stop hfocus)
    | emit e rest =>
      obtain ⟨s, f⟩ := c
      cases hfocus
      cases hmove
      exact .inl ⟨rest, rfl, fun a ha => hends a (.emit ha)⟩
    | perform op next =>
      obtain ⟨s, f⟩ := c
      cases hfocus
      cases hmove
      exact .inr ⟨next, Stack.mem_tails_self _, fun r a ha => hends a (.perform ha)⟩
  · rcases hmove.waits hnext with hframes | hstill
    · obtain ⟨s, f⟩ := c
      cases f with
      | reply r k' =>
        cases hframes
        cases hmove
        exact .inl ⟨next r, rfl, hends r⟩
      | operate op k' =>
        cases hframes
        exact .inr ⟨next, hmove.waits_of_operate rfl (Stack.mem_tails_self _), hends⟩
      | _ => cases hframes
    · exact .inr ⟨next, hstill, hends⟩

theorem Run.runs {allowed : Op V → Prop} {past later before : List (Config V)} {c₀ c : Config V}
    (hrun : Run allowed past c) (hpast : c :: past = later ++ c₀ :: before)
    {script : Script V .validator} {j : Id} {k : Stack V .update}
    (hcall : c₀.focus = .run script (.validating j k))
    (hlater : ∀ d ∈ later, d.Waits (.validating j k)) : c.Runs script (.validating j k) := by
  induction later generalizing c past with
  | nil =>
    obtain ⟨rfl, rfl⟩ := List.cons.inj hpast
    exact .inl ⟨script, hcall, fun _ => id⟩
  | cons d later ih =>
    obtain ⟨rfl, hbefore⟩ := List.cons.inj hpast
    have hinside : ∀ d ∈ later, d.Waits (.validating j k) :=
      fun d hd => hlater d (List.mem_cons_of_mem _ hd)
    cases hrun with
    | start hop => cases later <;> cases hbefore
    | step hrun hstep =>
      exact (ih hrun hbefore hinside).transition (.of_step hstep) (hlater _ List.mem_cons_self)
    | perform => cases List.mem_singleton.1 (hlater _ List.mem_cons_self)

omit [BEq V] in
/-- What a validator answers is an answer with which its script may end. -/
theorem Runs.ends {c : Config V} {script : Script V .validator} {j : Id} {k : Stack V .update}
    (hc : c.Runs script (.validating j k)) {a : Answer V .validator}
    (hfocus : c.focus = .run (.stop a) (.validating j k)) : script.Ends a := by
  rcases hc with ⟨rest, hrest, hends⟩ | ⟨next, hnext, _⟩
  · rw [hfocus] at hrest
    cases hrest
    exact hends _ (.stop _)
  · -- The validator itself is innermost.
    unfold Waits at hnext
    rw [hfocus] at hnext
    exact absurd (Stack.depth_le hnext) (Nat.not_succ_le_self _)

/-- What a validator can return is an answer with which its script may end. -/
theorem ends_of_canReturn {f : V → Script V .validator} {v : V} (hv : CanReturn f v) :
    ∃ x, (f x).Ends (.ok v) := by
  obtain ⟨past, c, hrun, x, j, k, hfocus, later, c₀, before, hpast, hcall, hlater⟩ := hv
  exact ⟨x, (hrun.runs hpast hcall hlater).ends hfocus⟩

/-! ## Values -/

theorem value?_of_written? {c d : Config V} (hstep : c.step = some d) {i : Id} {v : V}
    (hwritten : c.written? = some (i, v)) : d.state.world.value? i = some v := by
  obtain ⟨old, k, hold, hworld, _, _⟩ := announced_of_written? hstep hwritten
  rw [hworld]
  exact World.value?_store_self hold v

/-- A property was built at some moment, and it has the value with which it was built if nothing has
been written to it since, and else a value that was written. -/
theorem Run.built {allowed : Op V → Prop} {past : List (Config V)} {c : Config V}
    (hrun : Run allowed past c) {i : Id} {f : V → Script V .validator}
    (hf : c.state.world.validator? i = some f) :
    ∃ later c₀ before init, past = later ++ c₀ :: before ∧ c₀.Builds i init f ∧
      ((c.state.world.value? i = some init ∧ ∀ d ∈ later, ∀ w, d.written? ≠ some (i, w)) ∨
        ∃ d ∈ later, ∃ w, d.written? = some (i, w) ∧ c.state.world.value? i = some w) := by
  induction hrun with
  | start hop => cases hf
  | @step past c d hrun hstep ih =>
    have heffect := Effect.of_transition (.of_step hstep)
    have halive := World.alive_of_validator? hf
    by_cases hlt : i < c.state.world.objects.size
    · rw [World.validator?, heffect.bind_body? Body.isFixed_validator? hlt halive] at hf
      obtain ⟨later, c₀, before, init, rfl, hbuilds, hvalue⟩ := ih hf
      refine ⟨c :: later, c₀, before, init, rfl, hbuilds, ?_⟩
      by_cases hwritten : ∃ w, c.written? = some (i, w)
      · obtain ⟨w, hw⟩ := hwritten
        exact .inr ⟨c, List.mem_cons_self, w, hw, value?_of_written? hstep hw⟩
      · have hnone : ∀ w, c.written? ≠ some (i, w) := fun w hw => hwritten ⟨w, hw⟩
        rw [heffect.value? hlt halive hnone]
        rcases hvalue with ⟨hinit, hnever⟩ | ⟨e, he, w, hw, hlast⟩
        · left
          refine ⟨hinit, fun e he => ?_⟩
          rcases List.mem_cons.1 he with rfl | he
          · exact hnone
          · exact hnever e he
        · exact .inr ⟨e, List.mem_cons_of_mem _ he, w, hw, hlast⟩
    · obtain ⟨init, hbuilds, hinit⟩ := heffect.built (Nat.le_of_not_lt hlt) hf
      exact ⟨[], c, past, init, rfl, hbuilds, .inl ⟨hinit, fun e he => by cases he⟩⟩
  | @perform past c op hrun hreply hop ih =>
    obtain ⟨later, c₀, before, init, rfl, hbuilds, hvalue⟩ := ih hf
    refine ⟨c :: later, c₀, before, init, rfl, hbuilds, ?_⟩
    rcases hvalue with ⟨hinit, hnever⟩ | ⟨e, he, hlast⟩
    · left
      refine ⟨hinit, fun e he => ?_⟩
      rcases List.mem_cons.1 he with rfl | he
      · obtain ⟨r, hfocus⟩ := isSome_reply?_iff.1 hreply
        intro w hw
        rw [written?, hfocus] at hw
        cases hw
      · exact hnever e he
    · exact .inr ⟨e, List.mem_cons_of_mem _ he, hlast⟩

/-- Whatever callbacks do, and whichever way a property is written, bound or released: everything
that holds of all values that its validator can return holds of its own value from the first write
on. It holds of the new value of each of its rounds, and of the old one unless nothing has been
written before, which is so in its first round only. No step changes the value but one that writes
a validated one. -/
theorem Run.validated {allowed : Op V → Prop} {past : List (Config V)} {c : Config V}
    (hrun : Run allowed past c) {i : Id} {p : Property V}
    (hp : c.state.world.property? i = some p) {Q : V → Prop}
    (hQ : ∀ v, CanReturn p.validate v → Q v) :
    ∃ later c₀ before init, past = later ++ c₀ :: before ∧ c₀.Builds i init p.validate ∧
      ((p.value = init ∧ ∀ e ∈ later, ∀ v, e.written? ≠ some (i, v)) ∨
        ((∃ e ∈ later, ∃ v, e.written? = some (i, v)) ∧ Q p.value)) ∧
      ∀ d, c.step = some d →
        (∀ all observed old new k, d.focus = .round all observed old new k → ¬ c.Waits k →
          k.owner = i → c.written? = some (i, new) ∧ Q new ∧
            (Q old ∨ (old = init ∧ ∀ e ∈ later, ∀ v, e.written? ≠ some (i, v)))) ∧
        ∀ v, d.state.world.value? i = some v →
          (c.written? = some (i, v) ∧ Q v) ∨
            ((∀ w, c.written? ≠ some (i, w)) ∧ v = p.value) := by
  have hf := World.validator?_of_property? hp
  have hvalue := World.value?_of_property? hp
  obtain ⟨later, c₀, before, init, rfl, hbuilds, hwrites⟩ := hrun.built hf
  have hnow : ∀ v, c.written? = some (i, v) → Q v :=
    fun v hv => hQ v ⟨_, c, hrun.any, hrun.returns_of_written? hv hf⟩
  -- A value written earlier was returned by the same validator.
  have hearlier : ∀ e ∈ later, ∀ v, e.written? = some (i, v) → Q v := by
    intro e he v hv
    obtain ⟨later₂, later₁, rfl⟩ := List.append_of_mem he
    rw [List.append_assoc, List.cons_append] at hrun
    obtain ⟨old, hold, _⟩ := written?_cases hv
    have hlt := World.lt_size_of_alive (World.alive_of_value? hold)
    have hpast := hrun.of_append
    exact hQ v ⟨_, e, hpast.any, hpast.returns_of_written? hv (hrun.validator?_kept hlt hf)⟩
  have hcases : (p.value = init ∧ ∀ e ∈ later, ∀ v, e.written? ≠ some (i, v)) ∨
      ((∃ e ∈ later, ∃ v, e.written? = some (i, v)) ∧ Q p.value) := by
    rw [hvalue] at hwrites
    rcases hwrites with ⟨hinit, hnever⟩ | ⟨e, he, w, hw, hlast⟩
    · exact .inl ⟨Option.some.inj hinit, hnever⟩
    · rw [Option.some.inj hlast]
      exact .inr ⟨⟨e, he, w, hw⟩, hearlier e he w hw⟩
  refine ⟨later, c₀, before, init, rfl, hbuilds, hcases, fun d hstep => ⟨?_, ?_⟩⟩
  · intro all observed old new k hfocus hnew howner
    rcases (Transition.of_step hstep).round_cases hfocus with hcalled | ⟨_, hopens, _⟩
    · refine absurd ?_ hnew
      unfold Waits
      rw [hcalled]
      exact List.mem_cons_of_mem _ (Stack.mem_tails_self k)
    · rcases hopens.written? with ⟨name, hname⟩ | ⟨hwritten, hold⟩
      · -- What an operation notifies is no property.
        cases howner
        have hbare := hrun.sound.world.shape?_of_set hname
        exact absurd (hbare.symm.trans (World.shape?_eq_property_iff.2 ⟨p, hp⟩)) (by simp)
      · rw [howner] at hwritten hold
        have hpvalue : p.value = old := Option.some.inj (hvalue.symm.trans hold)
        refine ⟨hwritten, hnow new hwritten, ?_⟩
        rw [← hpvalue]
        rcases hcases with hfirst | ⟨_, hQvalue⟩
        · exact .inr hfirst
        · exact .inl hQvalue
  · intro v hv
    by_cases hwritten : ∃ w, c.written? = some (i, w)
    · obtain ⟨w, hw⟩ := hwritten
      have hsame : v = w := Option.some.inj (hv.symm.trans (value?_of_written? hstep hw))
      rw [hsame]
      exact .inl ⟨hw, hnow w hw⟩
    · have hnone : ∀ w, c.written? ≠ some (i, w) := fun w hw => hwritten ⟨w, hw⟩
      have hlt := World.lt_size_of_alive (World.alive_of_value? hvalue)
      have hkept := (Effect.of_transition (.of_step hstep)).value? hlt (World.alive_of_value? hv)
        hnone
      rw [hv, hvalue] at hkept
      exact .inr ⟨hnone, Option.some.inj hkept⟩

/-- A validator that doubles sets its own property again before it answers. The property begins with
an odd value; both writes are even, and the outer one takes the place of the inner one. -/
theorem validated_reentrant : ∃ (past : List (Config Nat)) (c : Config Nat) (p : Property Nat),
    Run (fun _ => True) past c ∧ c.state.world.property? 0 = some p ∧
      (∀ v, CanReturn p.validate v → v % 2 = 0) ∧ p.value = 26 ∧ c.written? = some (0, 6) ∧
      ∃ later c₀ before init, past = later ++ c₀ :: before ∧ c₀.Builds 0 init p.validate ∧
        ((p.value = init ∧ ∀ e ∈ later, ∀ v, e.written? ≠ some (0, v)) ∨
          ((∃ e ∈ later, ∃ v, e.written? = some (0, v)) ∧ p.value % 2 = 0)) ∧
        ∀ d, c.step = some d →
          (∀ all observed old new k, d.focus = .round all observed old new k → ¬ c.Waits k →
            k.owner = 0 → c.written? = some (0, new) ∧ new % 2 = 0 ∧
              (old % 2 = 0 ∨ (old = init ∧ ∀ e ∈ later, ∀ v, e.written? ≠ some (0, v)))) ∧
          ∀ v, d.state.world.value? 0 = some v →
            (c.written? = some (0, v) ∧ v % 2 = 0) ∨
              ((∀ w, c.written? ≠ some (0, w)) ∧ v = p.value) := by
  have hproperty : Run (fun _ => True) _ (start {} (.act (.property "p" 1 (fun v =>
      if v < 10 then .perform (.set "p" (v + 10)) fun _ => .stop (.ok (2 * v))
      else .stop (.ok (2 * v))) none))) := .start trivial
  have hset : Run (fun _ => True) _ (start _ (.set "p" 3)) :=
    (hproperty.step rfl).perform rfl trivial
  have hlast := hset.iterate 8
  have heven : ∀ v, CanReturn (fun v : Nat =>
      if v < 10 then .perform (.set "p" (v + 10)) fun _ => .stop (.ok (2 * v))
      else .stop (.ok (2 * v))) v → v % 2 = 0 := by
    intro v hv
    obtain ⟨x, hends⟩ := ends_of_canReturn hv
    have hdouble : v = 2 * x := by
      by_cases hx : x < 10
      · rw [if_pos hx] at hends
        cases hends with
        | perform hnext =>
          cases hnext
          rfl
      · rw [if_neg hx] at hends
        cases hends
        rfl
    omega
  exact ⟨_, _, _, hlast, rfl, heven, rfl, rfl,
    hlast.validated (Q := fun v => v % 2 = 0) rfl heven⟩

end Config

end Observable
