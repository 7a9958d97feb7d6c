import Observable.Proofs.Announcements
import Observable.Proofs.Failures
import Observable.Proofs.Rebinding
import Observable.Proofs.Waiting

/-!
# Bound and released in turn

The successful calls of `bind` and `unbind` on a property alternate and begin with `bind`; the
property is bound exactly after the odd ones, and what the library announces of it alternates in the
same way, with the same source when it is released as when it was bound (`InTurn`). This is so in
every run, whatever callbacks do, because only these two operations touch the source of an object
(`Config.Run.takesTurns`).

The second half adds what each call replies (`Config.Lifecycle`). That `set` fails with `boundWrite`
only on a bound property needs that a failure which comes back from an update was a callback's
(`Config.Run.staged`): the failures of operations reach a caller as they are, or wrapped by the
stage that passed them on.
-/

namespace Observable

variable {V : Type}

/-- The property that was bound or released. -/
def Trace.rebound? : Trace → Option Id
  | .bound i _ | .unbound i _ => some i
  | _ => none

/-- Successful calls on a property, given as the sources that they left it with, and announcements
of the same calls, both latest first; and the source that they leave it with in the end. -/
inductive InTurn (i : Id) : List (Option Id) → List Trace → Option Id → Prop
  | new : InTurn i [] [] none
  | bind {calls : List (Option Id)} {traces : List Trace} (source : Id)
      (hfree : InTurn i calls traces none) :
    InTurn i (some source :: calls) (.bound i source :: traces) (some source)
  | unbind {calls : List (Option Id)} {traces : List Trace} {source : Id}
      (hbound : InTurn i calls traces (some source)) :
    InTurn i (none :: calls) (.unbound i source :: traces) none

/-- The last call says whether there is a source. -/
theorem InTurn.isSome_iff {i : Id} {calls : List (Option Id)} {traces : List Trace}
    {source : Option Id} (hturn : InTurn i calls traces source) :
    source.isSome = true ↔ ∃ u, calls.head? = some (some u) := by
  cases hturn <;> simp

namespace World

theorem isBound_of_property? {w : World V} {i : Id} {p : Property V} (hp : w.property? i = some p) :
    w.isBound i = p.source.isSome := by
  simp [isBound, hp]

variable {w : World V} {i : Id} {source : Option Id} {e : Observable.Effect V}

/-- The announcement of what an action binds or releases. -/
theorem Rebinding.traces (h : w.Rebinding (some (i, source)) e) :
    ∃ t, e.traces = [t] ∧ t.rebound? = some i := by
  cases h with
  | bind => exact ⟨_, rfl, rfl⟩
  | unbind => exact ⟨_, rfl, rfl⟩

theorem Rebinding.alive (h : w.Rebinding (some (i, source)) e) : w.alive i = true := by
  cases h with
  | bind hp => exact alive_of_shape? (shape?_eq_property_iff.2 ⟨_, hp⟩)
  | unbind hp => exact alive_of_shape? (shape?_eq_property_iff.2 ⟨_, hp⟩)

/-- What is bound or released has the source that it is said to get. -/
theorem Rebinding.relation? (h : w.Rebinding (some (i, source)) e) :
    e.world.relation? i = source.map (·, .bound i) := by
  cases h with
  | @bind _ u p hp =>
    obtain ⟨q, hq⟩ : ∃ q, (w.register u (.bound i)).property? i = some q := by
      rw [← shape?_eq_property_iff, shape?_register, shape?_eq_property_iff]
      exact ⟨p, hp⟩
    rw [relation?_follow hq, if_pos rfl]
  | unbind hp =>
    rw [relation?_unregister, relation?_follow hp, if_pos rfl]

end World

namespace Config

variable [BEq V]

/-- The successful calls of `bind` and `unbind` on a property, latest first: the sources that they
left it with. -/
def turns (past : List (Config V)) (i : Id) : List (Option Id) :=
  past.filterMap fun c => c.rebinding?.bind fun x => if x.1 = i then some x.2 else none

/-- What the library announced of the bindings and releases of a property, latest first. -/
def announced (past : List (Config V)) (i : Id) : List Trace :=
  past.flatMap fun c => (c.announces.filter fun t => t.rebound? == some i).reverse

/-! ## What one step announces -/

/-- A step that binds or releases a property announces it. -/
theorem Sound.announces_rebinding {c d : Config V} (hc : c.Sound) (hstep : c.step = some d) {i : Id}
    {source : Option Id} (hrebinding : c.rebinding? = some (i, source)) :
    ∃ e, d.state.world = e.world ∧ c.announces = e.traces ∧
      c.state.world.Rebinding (some (i, source)) e := by
  obtain ⟨e, k, hd, hcall⟩ := hc.rebinding hstep hrebinding
  refine ⟨e, by rw [hd], announces_of_log hstep ?_ _ (by rw [hd]), hcall⟩
  intro hnote
  unfold rebinding? at hrebinding
  split at hrebinding
  · next hfocus =>
    rw [hfocus] at hnote
    exact hnote
  · cases hrebinding

/-- What is announced without an operation on sources is the beginning of a round or the birth of a
binding. -/
theorem Announcing.rebound?_ne {c : Config V} {traces : List Trace} (h : c.Announcing traces)
    (hc : c.Sound) {i : Id} (hother : ∀ source, c.rebinding? ≠ some (i, source)) :
    ∀ t ∈ traces, t.rebound? ≠ some i := by
  cases h with
  | @act a k hfocus =>
    have hact := World.rebinding_act hc.world.linked k.holds a
    have hrebinding : c.rebinding? = c.state.world.rebinding? k.holds a := by
      rw [rebinding?, hfocus]
    rw [← hrebinding] at hact
    cases hsome : c.rebinding? with
    | none =>
      rw [hsome] at hact
      cases hact with
      | still htraces => simp [htraces]
    | some x =>
      obtain ⟨j, source⟩ := x
      rw [hsome] at hact
      obtain ⟨t, htraces, hj⟩ := hact.traces
      intro u hu hi
      rw [htraces, List.mem_singleton] at hu
      rw [hu, hj] at hi
      cases hi
      exact hother source hsome
  | silent => simp
  | write | notify | wrap =>
    intro t ht
    rw [List.mem_singleton.1 ht]
    simp [Trace.rebound?]

/-! ## The source of a property -/

/-- A new property is free. -/
theorem Effect.source_of_size_le {c : Config V} {w : World V} (h : c.Effect w) {i : Id}
    (hsize : c.state.world.objects.size ≤ i) {p : Property V} (hp : w.property? i = some p) :
    p.source = none := by
  have hshape : w.shape? i = some .property := World.shape?_eq_property_iff.2 ⟨p, hp⟩
  have hlt := World.lt_size_of_alive (World.alive_of_shape? hshape)
  have hsame : w.objects.size = c.state.world.objects.size → p.source = none := by
    intro heq
    rw [heq] at hlt
    exact absurd hlt (Nat.not_lt_of_le hsize)
  cases h with
  | same | count | send => exact hsame rfl
  | store => exact hsame (World.size_objects_alter ..)
  | release _ _ heq => exact hsame heq
  | edit hfocus hedit =>
    have hnone := hedit.relation?_of_size_le hsize
    rw [World.relation?_of_property? hp] at hnone
    simpa using hnone
  | wrap _ houtlived _ _ =>
    -- What is made is a binding.
    have hbody := houtlived.body i (World.alive_iff_body?.2 ⟨_, World.body?_of_property? hp⟩)
    rw [World.body?_of_property? hp, body?_wrap] at hbody
    split at hbody
    · cases hbody
    · obtain ⟨b, hb⟩ : ∃ b, c.state.world.body? i = some b := ⟨_, hbody.symm⟩
      have hold := World.lt_size_of_alive (World.alive_iff_body?.2 ⟨b, hb⟩)
      exact absurd hold (Nat.not_lt_of_le hsize)

/-- A property that is neither bound nor released in a step was there with the same source, or it is
new and free. -/
theorem source_of_step {c d : Config V} (hc : c.Sound) (hstep : c.step = some d) {i : Id}
    (hother : ∀ source, c.rebinding? ≠ some (i, source)) {p : Property V}
    (hp : d.state.world.property? i = some p) :
    (∃ q, c.state.world.property? i = some q ∧ p.source = q.source) ∨
      (c.state.world.objects.size ≤ i ∧ p.source = none) := by
  have heffect := Effect.of_transition (.of_step hstep)
  have hshape : d.state.world.shape? i = some .property := World.shape?_eq_property_iff.2 ⟨p, hp⟩
  have halive := World.alive_of_shape? hshape
  by_cases hlt : i < c.state.world.objects.size
  · left
    rw [heffect.shape? hlt halive] at hshape
    obtain ⟨q, hq⟩ := World.shape?_eq_property_iff.1 hshape
    refine ⟨q, hq, ?_⟩
    have hrelation := relation?_of_step hc hstep hlt halive hother
    rw [World.relation?_of_property? hp, World.relation?_of_property? hq] at hrelation
    exact Option.map_injective (fun _ _ h => (Prod.mk.inj h).1) hrelation
  · have hsize : c.state.world.objects.size ≤ i := Nat.le_of_not_lt hlt
    exact .inr ⟨hsize, heffect.source_of_size_le hsize hp⟩

/-! ## The turns of a run -/

theorem turns_of_other {c : Config V} {i : Id}
    (hother : ∀ source, c.rebinding? ≠ some (i, source)) (past : List (Config V)) :
    turns (c :: past) i = turns past i := by
  unfold turns
  apply List.filterMap_cons_none
  cases hrebinding : c.rebinding? with
  | none => rfl
  | some x =>
    have hne : x.1 ≠ i := by
      rintro rfl
      exact hother x.2 hrebinding
    simp [hne]

theorem turns_of_rebinding? {c : Config V} {i : Id} {source : Option Id}
    (hrebinding : c.rebinding? = some (i, source)) (past : List (Config V)) :
    turns (c :: past) i = source :: turns past i := by
  unfold turns
  apply List.filterMap_cons_some
  simp [hrebinding]

theorem announced_of_other {c : Config V} {i : Id}
    (hother : ∀ t ∈ c.announces, t.rebound? ≠ some i) (past : List (Config V)) :
    announced (c :: past) i = announced past i := by
  have hnone : c.announces.filter (fun t => t.rebound? == some i) = [] := by
    simpa using hother
  simp [announced, hnone]

theorem announced_of_singleton {c : Config V} {i : Id} {t : Trace} (ht : c.announces = [t])
    (hi : t.rebound? = some i) (past : List (Config V)) :
    announced (c :: past) i = t :: announced past i := by
  simp [announced, ht, hi]

/-- A property has the source that its turns leave it with, and a number that is not given yet has
had none. -/
structure TakesTurns (past : List (Config V)) (c : Config V) (i : Id) (source : Option Id) :
    Prop where
  inTurn : InTurn i (turns past i) (announced past i) source
  left : ∀ p, c.state.world.property? i = some p → p.source = source
  fresh : c.state.world.objects.size ≤ i → source = none

theorem TakesTurns.step {past : List (Config V)} {c d : Config V} (hc : c.Sound)
    (hstep : c.step = some d) {i : Id} {source : Option Id}
    (hturns : c.TakesTurns past i source) : ∃ source', d.TakesTurns (c :: past) i source' := by
  have heffect := Effect.of_transition (.of_step hstep)
  by_cases hrebinding : ∃ source', c.rebinding? = some (i, source')
  · obtain ⟨source', hsource'⟩ := hrebinding
    obtain ⟨e, hworld, hannounces, hcall⟩ := hc.announces_rebinding hstep hsource'
    refine ⟨source', ?_, ?_, ?_⟩
    · cases hcall with
      | @bind i u p hp hfree hne =>
        rw [turns_of_rebinding? hsource', announced_of_singleton hannounces rfl]
        have hprior := hturns.inTurn
        rw [← hturns.left p hp, hfree] at hprior
        exact .bind u hprior
      | @unbind i u p hp hbound =>
        rw [turns_of_rebinding? hsource', announced_of_singleton hannounces rfl]
        have hprior := hturns.inTurn
        rw [← hturns.left p hp, hbound] at hprior
        exact .unbind hprior
    · intro p hp
      have hrelation : d.state.world.relation? i = source'.map (·, .bound i) := by
        rw [hworld]
        exact hcall.relation?
      rw [World.relation?_of_property? hp] at hrelation
      exact Option.map_injective (fun _ _ h => (Prod.mk.inj h).1) hrelation
    · intro hsize
      have hlt := World.lt_size_of_alive hcall.alive
      exact absurd hlt (Nat.not_lt_of_le (Nat.le_trans heffect.size_objects_le hsize))
  · have hother : ∀ source', c.rebinding? ≠ some (i, source') :=
      fun source' h => hrebinding ⟨source', h⟩
    refine ⟨source, ?_, ?_, ?_⟩
    · have hsilent := (announcing_of_step hstep).rebound?_ne hc hother
      rw [turns_of_other hother, announced_of_other hsilent]
      exact hturns.inTurn
    · intro p hp
      rcases source_of_step hc hstep hother hp with ⟨q, hq, hsame⟩ | ⟨hsize, hfree⟩
      · rw [hsame, hturns.left q hq]
      · rw [hfree, hturns.fresh hsize]
    · intro hsize
      exact hturns.fresh (Nat.le_trans heffect.size_objects_le hsize)

theorem Run.takesTurns {allowed : Op V → Prop} {past : List (Config V)} {c : Config V}
    (hrun : Run allowed past c) (i : Id) : ∃ source, c.TakesTurns past i source := by
  induction hrun with
  | start hop =>
    refine ⟨none, .new, ?_, fun _ => rfl⟩
    intro p hp
    cases hp
  | step hrun hstep ih =>
    obtain ⟨source, hturns⟩ := ih
    exact hturns.step hrun.sound hstep
  | @perform past c op hrun hreply hop ih =>
    obtain ⟨source, hturns⟩ := ih
    obtain ⟨r, hfocus⟩ := isSome_reply?_iff.1 hreply
    have hstop := (step_eq_none_iff c).2 hreply
    have hother : ∀ source', c.rebinding? ≠ some (i, source') := by
      intro source' h
      rw [rebinding?, hfocus] at h
      cases h
    have hsilent : c.announces = [] := by
      simp [announces, hfocus, hstop]
    refine ⟨source, ?_, hturns.left, hturns.fresh⟩
    rw [turns_of_other hother, announced_of_other (by simp [hsilent])]
    exact hturns.inTurn

/-! ## The replies -/

theorem step_act {c : Config V} {a : Action V} {k : Stack V .reply}
    (hfocus : c.focus = .operate (.act a) k) :
    c.step = some ⟨⟨(c.state.world.act k.holds a).world,
        c.state.log ++ (c.state.world.act k.holds a).traces.map .trace⟩,
      .reply (c.state.world.act k.holds a).reply k⟩ := by
  obtain ⟨s, f⟩ := c
  cases hfocus
  rfl

omit [BEq V] in
/-- An action that only replies leaves the state as it is. -/
theorem state_of_replies {s : State V} {e : Observable.Effect V} {r : Reply V}
    (he : e = s.world.replies r) :
    (⟨e.world, s.log ++ e.traces.map .trace⟩ : State V) = s := by
  rw [he]
  simp [World.replies]

theorem step_bind {c : Config V} {name target : String} {k : Stack V .reply} {i source : Id}
    {p : Property V} (hfocus : c.focus = .operate (.act (.bind name target)) k)
    (hname : c.state.world.find? name Handle.property? = some i)
    (htarget : c.state.world.find? target Handle.observable? = some source)
    (hp : c.state.world.property? i = some p) :
    ∃ s, c.step = some ⟨s, .reply
        (if i = source then .failed .selfBinding
          else if p.source.isSome then .failed .alreadyBound
          else .done .unit) k⟩ ∧
      (i = source ∨ p.source.isSome = true → s = c.state) ∧
        ∀ j, s.world.value? j = c.state.world.value? j := by
  have hstep := step_act hfocus
  rw [World.act_bind _ hname htarget, World.reply_bind hp] at hstep
  refine ⟨_, hstep, ?_, World.value?_bind _ _ _⟩
  intro hrefused
  obtain ⟨r, hr⟩ := World.bind_refused hp hrefused
  exact state_of_replies hr

theorem step_unbind {c : Config V} (hc : c.Sound) {name : String} {k : Stack V .reply} {i : Id}
    {p : Property V} (hfocus : c.focus = .operate (.act (.unbind name)) k)
    (hname : c.state.world.find? name Handle.property? = some i)
    (hp : c.state.world.property? i = some p) :
    ∃ s, c.step = some ⟨s, .reply
        (if p.source.isSome then .done .unit else .failed .notBound) k⟩ ∧
      (p.source.isSome = false → s = c.state) ∧
        ∀ j, s.world.value? j = c.state.world.value? j := by
  have hstep := step_act hfocus
  rw [World.act_unbind _ hname, World.reply_unbind hc.world.linked hp] at hstep
  refine ⟨_, hstep, ?_, World.value?_unbind _ _⟩
  intro hfree
  exact state_of_replies (World.unbind_free hp (by simpa using hfree))

/-- `set` returns what its update ended with, which is no refusal. -/
theorem reply_of_setting {c d : Config V} (hc : c.Staged) (hstep : c.step = some d) {i : Id}
    {k : Stack V .reply} (hframes : c.focus.frames = ⟨_, .setting i k⟩) :
    ∃ r, d.focus = .reply r k ∧ r ≠ .failed .boundWrite := by
  obtain ⟨s, f⟩ := c
  obtain ⟨r, hfocus⟩ : ∃ r, f = .updated r (.setting i k) := by
    cases f with
    | updated r k' =>
      cases hframes
      exact ⟨r, rfl⟩
    | _ => cases hframes
  cases hfocus
  cases hstep
  refine ⟨_, rfl, ?_⟩
  cases r with
  | ok old => simp
  | error e =>
    rintro ⟨⟩
    cases hc.error _ rfl

/-- Until it has a reply, a call of `set` on a free property waits; the reply is no refusal. -/
theorem Run.reply_of_set {allowed : Op V → Prop} {later before : List (Config V)}
    {c₀ c : Config V} (hrun : Run allowed (later ++ c₀ :: before) c) {name : String} {v : V}
    {k : Stack V .reply} {i : Id} {p : Property V} (hfocus : c₀.focus = .operate (.set name v) k)
    (hname : c₀.state.world.find? name Handle.property? = some i)
    (hp : c₀.state.world.property? i = some p) (hfree : p.source = none)
    (hopen : ∀ e ∈ later, ∀ r, e.focus ≠ .reply r k) :
    c.Waits (.setting i k) ∨ ∃ r, c.focus = .reply r k ∧ r ≠ .failed .boundWrite := by
  induction later generalizing c with
  | nil =>
    left
    cases hrun with
    | step hrun hstep =>
      rw [step_set_free hfocus hname hp hfree] at hstep
      cases hstep
      exact List.mem_cons_of_mem _ (Stack.mem_tails_self _)
    | perform hrun hreply hop =>
      obtain ⟨r, hr⟩ := isSome_reply?_iff.1 hreply
      rw [hr] at hfocus
      cases hfocus
  | cons e later ih =>
    have hopen' : ∀ e ∈ later, ∀ r, e.focus ≠ .reply r k :=
      fun d hd => hopen d (List.mem_cons_of_mem _ hd)
    cases hrun with
    | step hrun hstep =>
      rcases ih hrun hopen' with hwaits | ⟨r, hreply, _⟩
      · rcases (Transition.of_step hstep).waits hwaits with hinner | hwaits
        · exact .inr (reply_of_setting hrun.staged hstep hinner)
        · exact .inl hwaits
      · exact absurd hreply (hopen e List.mem_cons_self r)
    | perform hrun hreply hop =>
      obtain ⟨r, hr⟩ := isSome_reply?_iff.1 hreply
      rcases ih hrun hopen' with hwaits | ⟨r', hreply', _⟩
      · rw [Waits, hr] at hwaits
        cases List.mem_singleton.1 hwaits
      · exact absurd hreply' (hopen e List.mem_cons_self r')

/-- The reply to `set`, which is the first one above its frames, is a refusal if and only if the
property was bound when it was called. -/
theorem Run.refused_iff {allowed : Op V → Prop} {later before : List (Config V)}
    {c₀ c : Config V} (hrun : Run allowed (later ++ c₀ :: before) c) {name : String} {v : V}
    {k : Stack V .reply} {i : Id} {p : Property V} (hfocus : c₀.focus = .operate (.set name v) k)
    (hname : c₀.state.world.find? name Handle.property? = some i)
    (hp : c₀.state.world.property? i = some p) {r : Reply V} (hreply : c.focus = .reply r k)
    (hopen : ∀ e ∈ later, ∀ r, e.focus ≠ .reply r k) :
    r = .failed .boundWrite ↔ p.source.isSome = true := by
  cases hsource : p.source with
  | none =>
    have hserved : r ≠ .failed .boundWrite := by
      rcases hrun.reply_of_set hfocus hname hp hsource hopen with hwaits | ⟨r', hr', hne⟩
      · rw [Waits, hreply] at hwaits
        exact absurd hwaits (Stack.setting_not_mem_tails i k)
      · rw [hreply] at hr'
        cases hr'
        exact hne
    simp [hserved]
  | some u =>
    have hstep := step_set_bound hfocus hname hp (by rw [hsource]; rfl)
    rcases hrun.eq_or_mem_of_step hstep with rfl | hmem
    · cases hreply
      simp
    · exact absurd rfl (hopen _ hmem _)

/-! ## The life of a property -/

/-- How the calls of `bind`, `unbind` and `set` on a property go, given the past of a run. -/
structure Lifecycle (past : List (Config V)) (c : Config V) (i : Id) : Prop where
  /-- Successful calls of `bind` and `unbind` alternate, beginning with `bind`, and so do their
  announcements, which name the same source at the beginning and at the end; what the last call
  left is what the property has. -/
  inTurn : ∃ source, InTurn i (turns past i) (announced past i) source ∧
    ∀ p, c.state.world.property? i = some p → p.source = source
  isBound : c.state.world.shape? i = some .property →
    (c.state.world.isBound i = true ↔ ∃ source, (turns past i).head? = some (some source))
  /-- `bind` ends at once and changes no value; if it fails, it changes nothing. -/
  bind : ∀ name target source k, c.focus = .operate (.act (.bind name target)) k →
    c.state.world.find? name Handle.property? = some i →
    c.state.world.find? target Handle.observable? = some source →
    ∃ s, c.step = some ⟨s, .reply
        (if i = source then .failed .selfBinding
          else if c.state.world.isBound i then .failed .alreadyBound
          else .done .unit) k⟩ ∧
      (i = source ∨ c.state.world.isBound i = true → s = c.state) ∧
        ∀ j, s.world.value? j = c.state.world.value? j
  /-- `unbind` ends at once and changes no value; if it fails, it changes nothing. -/
  unbind : ∀ name k, c.focus = .operate (.act (.unbind name)) k →
    c.state.world.find? name Handle.property? = some i →
    ∃ s, c.step = some ⟨s, .reply
        (if c.state.world.isBound i then .done .unit else .failed .notBound) k⟩ ∧
      (c.state.world.isBound i = false → s = c.state) ∧
        ∀ j, s.world.value? j = c.state.world.value? j
  /-- A bound property refuses `set` at once, and nothing changes. -/
  refused : ∀ name v k, c.focus = .operate (.set name v) k →
    c.state.world.find? name Handle.property? = some i → c.state.world.isBound i = true →
    c.step = some ⟨c.state, .reply (.failed .boundWrite) k⟩
  /-- The reply to `set`, which is the first one above its frames, is a refusal if and only if the
  property was bound when it was called. -/
  set : ∀ later c₀ before name v k r, past = later ++ c₀ :: before →
    c₀.focus = .operate (.set name v) k →
    c₀.state.world.find? name Handle.property? = some i → c.focus = .reply r k →
    (∀ e ∈ later, ∀ r', e.focus ≠ .reply r' k) →
    (r = .failed .boundWrite ↔ c₀.state.world.isBound i = true)

/-- In every run, whatever callbacks do, every property lives as `Lifecycle` says. -/
theorem Run.lifecycle {allowed : Op V → Prop} {past : List (Config V)} {c : Config V}
    (hrun : Run allowed past c) (i : Id) : c.Lifecycle past i := by
  obtain ⟨source, hturns⟩ := hrun.takesTurns i
  have hfound : ∀ {past : List (Config V)} {c : Config V}, Run allowed past c → ∀ {name},
      c.state.world.find? name Handle.property? = some i →
        ∃ p, c.state.world.property? i = some p ∧ c.state.world.isBound i = p.source.isSome := by
    intro past c hrun name hname
    obtain ⟨p, hp⟩ := World.shape?_eq_property_iff.1 (hrun.sound.world.shape?_of_property hname)
    exact ⟨p, hp, World.isBound_of_property? hp⟩
  constructor
  case inTurn => exact ⟨source, hturns.inTurn, hturns.left⟩
  case isBound =>
    intro hshape
    obtain ⟨p, hp⟩ := World.shape?_eq_property_iff.1 hshape
    rw [World.isBound_of_property? hp, hturns.left p hp, hturns.inTurn.isSome_iff]
  case bind =>
    intro name target source k hfocus hname htarget
    obtain ⟨p, hp, hbound⟩ := hfound hrun hname
    rw [hbound]
    exact step_bind hfocus hname htarget hp
  case unbind =>
    intro name k hfocus hname
    obtain ⟨p, hp, hbound⟩ := hfound hrun hname
    rw [hbound]
    exact step_unbind hrun.sound hfocus hname hp
  case refused =>
    intro name v k hfocus hname hisBound
    obtain ⟨p, hp, hbound⟩ := hfound hrun hname
    rw [hbound] at hisBound
    exact step_set_bound hfocus hname hp hisBound
  case set =>
    intro later c₀ before name v k r hpast hfocus hname hreply hopen
    subst hpast
    obtain ⟨p, hp, hbound⟩ := hfound hrun.of_append hname
    rw [hbound]
    exact hrun.refused_iff hfocus hname hp hreply hopen

/-- A property is released after its source has died. -/
theorem lifecycle_orphan : ∃ (past : List (Config Bool)) (c : Config Bool),
    Run (fun _ => True) past c ∧ c.state.world.alive 0 = false ∧ turns past 1 = [none, some 0] ∧
      announced past 1 = [.unbound 1 0, .bound 1 0] ∧ c.Lifecycle past 1 := by
  have hsource : Run (fun _ => True) _
      (start {} (.act (.property "p" false (fun v => .stop (.ok v)) none))) := .start trivial
  have hproperty : Run (fun _ => True) _
      (start _ (.act (.property "q" false (fun v => .stop (.ok v)) none))) :=
    (hsource.step rfl).perform rfl trivial
  have hbind : Run (fun _ => True) _ (start _ (.act (.bind "q" "p"))) :=
    (hproperty.step rfl).perform rfl trivial
  have hdrop : Run (fun _ => True) _ (start _ (.act (.drop "p"))) :=
    (hbind.step rfl).perform rfl trivial
  have hunbind : Run (fun _ => True) _ (start _ (.act (.unbind "q"))) :=
    (hdrop.step rfl).perform rfl trivial
  have hlast := hunbind.step rfl
  exact ⟨_, _, hlast, rfl, rfl, rfl, hlast.lifecycle 1⟩

end Config

end Observable
