import Observable.Proofs.FirstObserver
import Observable.Proofs.Updates

/-!
# Conversions

The converter of a binding runs once while the binding is made, and then once for each call of the
binding's registration that finds it alive. What such a conversion answers is written at once and
announced in one round, whether or not it differs from the value before; nothing else writes the
binding and nothing else notifies its listeners. So the writes and the rounds of a binding are the
answers of its converter, one for one and in the order in which the conversions end, however deeply
they are nested in each other (`Config.Run.converted_once`).

What one step does about a binding is said once (`Config.Sound.turn`); what the past of a run says
follows from it by induction over the steps since the binding was made (`Config.Run.after`).
-/

namespace Observable

variable {V : Type}

namespace Body

/-- The converter of a binding, and its source. -/
def derivation? : Body V → Option ((V → Script V .converter) × Id)
  | .binding b => some (b.convert, b.source)
  | _ => none

theorem isFixed_derivation? : IsFixed (derivation? (V := V)) where
  store _ b := by cases b <;> rfl
  follow _ b := by cases b <;> rfl

end Body

/-- What is said, if it is said of `i`. -/
def concerning {α : Type} (i : Id) (x : Option (Id × α)) : Option α :=
  x.bind fun y => if y.1 = i then some y.2 else none

@[simp] theorem concerning_self {α : Type} (i : Id) (a : α) : concerning i (some (i, a)) = some a :=
  if_pos rfl

theorem length_concerning {α : Type} (i j : Id) (a : α) :
    (concerning i (some (j, a))).toList.length = if j = i then 1 else 0 := by
  by_cases hj : j = i <;> simp [concerning, hj]

theorem concerning_eq_none {α : Type} {i : Id} {x : Option (Id × α)}
    (hx : ∀ a, x ≠ some (i, a)) : concerning i x = none := by
  cases x with
  | none => rfl
  | some y =>
    obtain ⟨j, a⟩ := y
    refine if_neg ?_
    rintro rfl
    exact hx a rfl

namespace Stack

/-- What the converter of a binding answers to a change of its source. -/
def converted? : {ρ : Role} → Stack V (.answer ρ) → Answer V ρ → Option (Id × V)
  | _, .validating _ _, _ => none
  | _, .reporting _ _ _, _ => none
  | _, .converting i _, v => some (i, v)
  | _, .wrapping _ _ _ _, _ => none
  | _, .listening _, _ => none

/-- How many conversions for a binding wait for their answers. -/
def conversions (i : Id) : {a : Awaits} → Stack V a → Nat
  | _, .idle => 0
  | _, .script _ below => below.conversions i
  | _, .setting _ below => below.conversions i
  | _, .following _ below => below.conversions i
  | _, .validating _ below => below.conversions i
  | _, .reporting _ _ below => below.conversions i
  | _, .converting j below => below.conversions i + if j = i then 1 else 0
  | _, .wrapping _ _ _ below => below.conversions i
  | _, .listening below => below.conversions i
  | _, .round _ _ _ _ below => below.conversions i
  | _, .notifying _ _ below => below.conversions i
  | _, .updating _ _ below => below.conversions i
  | _, .recomputing _ below => below.conversions i

/-- A conversion in progress holds its binding. -/
theorem conversions_eq_zero {i : Id} {a : Awaits} {k : Stack V a} (hi : i ∉ k.holds) :
    k.conversions i = 0 := by
  induction k with
  | idle => rfl
  | setting j k ih | following j k ih | wrapping j name convert k ih | recomputing j k ih =>
    exact ih fun h => hi (List.mem_cons_of_mem _ h)
  | notifying j l k ih => exact ih fun h => hi (List.mem_cons_of_mem _ (List.mem_cons_of_mem _ h))
  | converting j k ih =>
    have hne : j ≠ i := by
      rintro rfl
      exact hi List.mem_cons_self
    rw [conversions, ih fun h => hi (List.mem_cons_of_mem _ h), if_neg hne]
  | _ =>
    rename_i ih
    exact ih hi

end Stack

namespace Config

/-! ## What a step does about a binding -/

/-- The conversion that the next step begins: of which binding, and of which value. -/
def begun? (c : Config V) : Option (Id × V) :=
  match c.focus with
  | .round (.derived i :: _) _ _ new _ => (c.state.world.binding? i).map fun _ => (i, new)
  | _ => none

/-- The conversion that the next step ends: of which binding, and with which answer. -/
def converted? (c : Config V) : Option (Id × V) :=
  match c.focus with
  | .run (.stop a) k => k.converted? a
  | _ => none

/-- The moments of a history at which something is said of `i`, in order. -/
def timeline {α : Type} (f : Config V → Option (Id × α)) (i : Id) (history : List (Config V)) :
    List α :=
  history.reverse.filterMap fun c => concerning i (f c)

theorem timeline_cons {α : Type} (f : Config V → Option (Id × α)) (i : Id) (c : Config V)
    (history : List (Config V)) :
    timeline f i (c :: history) = timeline f i history ++ (concerning i (f c)).toList := by
  unfold timeline
  rw [List.reverse_cons, List.filterMap_append]
  cases h : concerning i (f c) <;> simp [h]

theorem begun?_derived (s : State V) (i : Id) (rest : List Registration) (observed : Id)
    (old new : V) (k : Stack V .round) :
    begun? ⟨s, .round (.derived i :: rest) observed old new k⟩ =
      (s.world.binding? i).map fun _ => (i, new) := rfl

theorem converted?_converting (s : State V) (i : Id) (k : Stack V .call) (v : V) :
    converted? ⟨s, .run (@Script.stop V .converter v) (.converting i k)⟩ = some (i, v) := rfl

theorem focus_of_converted? {c : Config V} {i : Id} {v : V}
    (hconverted : c.converted? = some (i, v)) :
    ∃ k, c.focus = .run (@Script.stop V .converter v) (.converting i k) := by
  unfold converted? at hconverted
  split at hconverted
  · next ρ a k hfocus =>
    cases k with
    | converting j k =>
      cases hconverted
      exact ⟨k, hfocus⟩
    | _ => cases hconverted
  · cases hconverted

variable [BEq V]

/-- The round that the next step begins: over whose listeners, and for which change. -/
def opened? (c : Config V) : Option (Id × Change V) :=
  match c.focus with
  | .called _ _ => none
  | _ =>
    c.step.bind fun d =>
      match d.focus with
      | .round _ _ old new k => some (k.owner, ⟨old, new⟩)
      | _ => none

theorem opened?_of_round {c d : Config V} {rest : List Registration} {observed : Id} {old new : V}
    {k : Stack V .round} (hstep : c.step = some d)
    (hround : d.focus = .round rest observed old new k) (hnew : ∀ r k, c.focus ≠ .called r k) :
    c.opened? = some (k.owner, ⟨old, new⟩) := by
  unfold opened?
  split
  · next r k' hfocus => exact absurd hfocus (hnew r k')
  · rw [hstep, Option.bind_some, hround]

theorem round_of_opened? {c d : Config V} {i : Id} {x : Change V} (hstep : c.step = some d)
    (hopened : c.opened? = some (i, x)) :
    (∀ r k, c.focus ≠ .called r k) ∧ ∃ rest observed k,
      d.focus = .round rest observed x.old x.new k ∧ k.owner = i := by
  unfold opened? at hopened
  split at hopened
  · cases hopened
  · next hnew =>
    rw [hstep, Option.bind_some] at hopened
    split at hopened
    · next hround =>
      cases hopened
      exact ⟨hnew, _, _, _, hround, rfl⟩
    · cases hopened

/-- A binding is written when its converter has answered. -/
theorem Sound.converted?_of_written? {c : Config V} (hc : c.Sound) {i : Id}
    (hshape : c.state.world.alive i = true → c.state.world.shape? i = some .binding) {v : V}
    (hwritten : c.written? = some (i, v)) : c.converted? = some (i, v) := by
  obtain ⟨old, hold, ⟨j, k, hfocus, rfl, _⟩ | ⟨k, hfocus⟩⟩ := written?_cases hwritten
  · -- What is validated is a property.
    have hfits := hc.frames
    rw [hfocus] at hfits
    have hbinding := hshape (World.alive_of_value? hold)
    rw [fits_updated hfits] at hbinding
    cases hbinding
  · unfold converted?
    rw [hfocus]
    rfl

/-- A round over the listeners of a binding begins when its converter has answered. -/
theorem Sound.converted?_of_opened? {c d : Config V} (hc : c.Sound) (hstep : c.step = some d)
    {i : Id} (hshape : c.state.world.alive i = true → c.state.world.shape? i = some .binding)
    {x : Change V} (hopened : c.opened? = some (i, x)) : c.converted? = some (i, x.new) := by
  obtain ⟨hnew, rest, observed, k, hround, rfl⟩ := round_of_opened? hstep hopened
  rcases (Transition.of_step hstep).round_cases hround with hcalled | ⟨_, hopens, _⟩
  · exact absurd hcalled (hnew _ _)
  · rcases hopens.written? with ⟨name, hname⟩ | ⟨hwritten, hold⟩
    · -- Users notify sets only.
      have hbare := hc.world.shape?_of_set hname
      have hbinding := hbare.symm.trans (hshape (World.alive_of_shape? hbare))
      cases hbinding
    · exact hc.converted?_of_written? hshape hwritten

/-- What a step does about a binding: it ends a conversion, and then it writes the answer and
announces the change, or nothing. -/
theorem Sound.turn {c d : Config V} (hc : c.Sound) (hstep : c.step = some d) {i : Id}
    (hlt : i < c.state.world.objects.size)
    (hshape : c.state.world.alive i = true → c.state.world.shape? i = some .binding) :
    (∃ old v, c.converted? = some (i, v) ∧ c.written? = some (i, v) ∧
        c.opened? = some (i, ⟨old, v⟩) ∧ c.state.world.value? i = some old ∧
        d.state.world.value? i = some v) ∨
      (concerning i c.converted? = none ∧ concerning i c.written? = none ∧
        concerning i c.opened? = none ∧
        (d.state.world.alive i = true → d.state.world.value? i = c.state.world.value? i)) := by
  by_cases hanswer : ∃ v, c.converted? = some (i, v)
  · left
    obtain ⟨v, hconverted⟩ := hanswer
    obtain ⟨k, hfocus⟩ := focus_of_converted? hconverted
    obtain ⟨old, s, hold, hworld, hnext⟩ := hc.step_of_converted hfocus
    rw [hnext] at hstep
    cases hstep
    refine ⟨old, v, hconverted, ?_, ?_, hold, ?_⟩
    · rw [written?, hfocus]
      exact congrArg (Option.map fun _ => (i, v)) hold
    · exact opened?_of_round hnext rfl fun r k' h => by rw [hfocus] at h; cases h
    · rw [hworld, World.value?_store, if_pos rfl, hold]
      rfl
  · right
    have hwritten : ∀ v, c.written? ≠ some (i, v) := by
      intro v hwritten
      exact hanswer ⟨v, hc.converted?_of_written? hshape hwritten⟩
    refine ⟨concerning_eq_none fun v hv => hanswer ⟨v, hv⟩, concerning_eq_none hwritten,
      concerning_eq_none fun x hopened => ?_, fun halive => ?_⟩
    · exact hanswer ⟨x.new, hc.converted?_of_opened? hstep hshape hopened⟩
    · exact (Effect.of_transition (.of_step hstep)).value? hlt halive hwritten

/-! ## Conversions in progress -/

omit [BEq V] in
theorem conversions_fail (i : Id) (s : State V) (e : Error) (k : Stack V .update) :
    (s.fail e k).focus.frames.2.conversions i = k.conversions i :=
  State.fail_cases (P := fun d => d.focus.frames.2.conversions i = k.conversions i) rfl
    fun _ _ _ _ => rfl

/-- A conversion that begins waits until it ends. -/
theorem Transition.conversions {c d : Config V} (hmove : c.Transition d) (i : Id) :
    d.focus.frames.2.conversions i + (concerning i c.converted?).toList.length =
      c.focus.frames.2.conversions i + (concerning i c.begun?).toList.length := by
  cases hmove with
  | reject | announceFailed =>
    rw [conversions_fail]
    rfl
  | @convertedGone s j v k hgone | @converted s j old v k hold =>
    rw [converted?_converting, length_concerning]
    rfl
  | @convert s j b rest observed old new k hb =>
    rw [begun?_derived, hb, Option.map_some, length_concerning]
    rfl
  | @derivedGone s j rest observed old new k hgone =>
    rw [begun?_derived, hgone]
    rfl
  | _ => rfl

/-! ## From the making of a binding on -/

/-- A binding that is about to be made with the value `first`, under the next number. -/
structure Makes (c₀ : Config V) (b source : Id) (name : String)
    (convert : V → Script V .converter) (first : V) (k : Stack V .reply) : Prop where
  focus : c₀.focus = .run (@Script.stop V .converter first) (.wrapping source name convert k)
  number : c₀.state.world.objects.size = b

section

variable {allowed : Op V → Prop} {later before : List (Config V)} {c₀ c : Config V}
  {b source : Id} {name : String} {convert : V → Script V .converter} {first : V}
  {k : Stack V .reply}

omit [BEq V] in
/-- Nothing that waits holds a binding that is about to be made. -/
theorem Makes.not_mem_holds (hmakes : c₀.Makes b source name convert first k) (hc : c₀.Sound) :
    b ∉ k.holds := by
  intro hheld
  have halive : c₀.state.world.alive b = true := by
    refine hc.alive_of_holds ?_
    rw [Focus.holds, hmakes.focus]
    exact List.mem_cons_of_mem _ hheld
  have hlt := World.lt_size_of_alive halive
  rw [hmakes.number] at hlt
  exact Nat.lt_irrefl b hlt

/-- A binding is made with the first answer of its converter. -/
theorem Makes.step (hmakes : c₀.Makes b source name convert first k) (hc : c₀.Sound) :
    ∃ d, c₀.step = some d ∧ d.focus = .reply (.done .unit) k ∧
      d.state.world.names.find? name = some (.binding b) ∧
      d.state.world.binding? b = some ⟨first, convert, source⟩ := by
  obtain ⟨s, f⟩ := c₀
  obtain ⟨hfocus, rfl⟩ := hmakes
  cases hfocus
  have hstep : Config.step
      ⟨s, .run (@Script.stop V .converter first) (.wrapping source name convert k)⟩ =
        some (s.wrap source name convert first k) := rfl
  have halive := (hc.transition (.of_step hstep)).alive_of_wrap
  refine ⟨_, hstep, rfl, names_wrap .., ?_⟩
  have hbody := (outlived_wrap s source name convert first k).body _ halive
  rw [body?_wrap, if_pos rfl] at hbody
  rw [World.binding?_eq_body?, hbody]
  rfl

theorem Run.lt_size_of_made (hrun : Run allowed (later ++ c₀ :: before) c)
    (hmakes : c₀.Makes b source name convert first k) : b < c.state.world.objects.size := by
  obtain ⟨d, hstep, _, _, hborn⟩ := hmakes.step hrun.of_append.sound
  refine hrun.after (P := fun _ c => b < c.state.world.objects.size) hstep ?_ ?_ ?_
  · exact World.lt_size_of_alive (World.alive_of_shape? (World.shape?_eq_binding_iff.2 ⟨_, hborn⟩))
  · intro _ _ _ _ hlt hnext
    exact Nat.lt_of_lt_of_le hlt (Effect.of_transition (.of_step hnext)).size_objects_le
  · intro _ _ _ _ hlt _
    exact hlt

/-- A binding keeps its converter and its source. -/
theorem Run.binding?_of_made (hrun : Run allowed (later ++ c₀ :: before) c)
    (hmakes : c₀.Makes b source name convert first k) (halive : c.state.world.alive b = true) :
    ∃ v, c.state.world.binding? b = some ⟨v, convert, source⟩ := by
  obtain ⟨d, hstep, _, _, hborn⟩ := hmakes.step hrun.of_append.sound
  refine hrun.after (P := fun _ c => c.state.world.alive b = true →
    ∃ v, c.state.world.binding? b = some ⟨v, convert, source⟩) hstep ?_ ?_ ?_ halive
  · exact fun _ => ⟨first, hborn⟩
  · intro past c d hrun ih hnext halive
    have heffect := Effect.of_transition (.of_step hnext)
    have hlt := hrun.lt_size_of_made hmakes
    obtain ⟨v, hv⟩ := ih (heffect.alive hlt halive)
    have hkept := heffect.bind_body? Body.isFixed_derivation? hlt halive
    rw [World.body?_of_binding? hv] at hkept
    obtain ⟨body, hbody, hderivation⟩ := Option.bind_eq_some_iff.1 hkept
    cases body with
    | binding β =>
      cases hderivation
      refine ⟨β.value, ?_⟩
      rw [World.binding?_eq_body?, hbody]
      rfl
    | _ => cases hderivation
  · intro past c op _ ih _ halive
    exact ih halive

theorem Run.shape?_of_made (hrun : Run allowed (later ++ c₀ :: before) c)
    (hmakes : c₀.Makes b source name convert first k) (halive : c.state.world.alive b = true) :
    c.state.world.shape? b = some .binding := by
  obtain ⟨v, hv⟩ := hrun.binding?_of_made hmakes halive
  exact World.shape?_eq_binding_iff.2 ⟨_, hv⟩

/-! ## Before a binding is made -/

omit [BEq V] in
/-- An object that is not there yet is registered nowhere and has no name. -/
theorem Sound.unregistered (hc : c.Sound) (hsize : c.state.world.objects.size ≤ b) :
    c.state.world.alive b = false ∧ (∀ i, .derived b ∉ c.state.world.registrations i) ∧
      ∀ n h, c.state.world.names.find? n = some h → h.numbered? ≠ some b := by
  have hdead : c.state.world.alive b = false := by
    rw [Bool.eq_false_iff]
    exact fun halive => Nat.not_lt_of_le hsize (World.lt_size_of_alive halive)
  refine ⟨hdead, fun i hmem => ?_, fun n h hname hnumber => ?_⟩
  · rw [World.alive_of_relation? (hc.world.linked.relation?_of_mem hmem rfl)] at hdead
    cases hdead
  · have hsupports := hc.world.names n h hname
    cases h with
    | weak i =>
      cases hnumber
      exact Nat.not_lt_of_le hsize hsupports
    | listener | receiver => cases hnumber
    | _ =>
      cases hnumber
      rw [hsupports.alive rfl] at hdead
      cases hdead

/-- What a round calls was registered when the round began. -/
theorem Run.registered_of_called {past : List (Config V)} (hrun : Run allowed past c)
    {r : Registration} {rest : List Registration} {observed : Id} {old new : V}
    {kr : Stack V .round} (hfocus : c.focus = .round (r :: rest) observed old new kr) :
    ∃ d ∈ past, r ∈ d.state.world.registrations kr.owner := by
  have hcaused := hrun.caused
  rw [hfocus] at hcaused
  obtain ⟨_, d, _, rfl, ⟨hmem, _⟩, _⟩ := hcaused.1 r List.mem_cons_self
  exact ⟨d, List.mem_append_right _ List.mem_cons_self, hmem⟩

theorem Run.not_called {past : List (Config V)} (hrun : Run allowed past c)
    (hsize : c.state.world.objects.size ≤ b) (rest : List Registration) (observed : Id)
    (old new : V) (kr : Stack V .round) :
    c.focus ≠ .round (.derived b :: rest) observed old new kr := by
  intro hfocus
  obtain ⟨d, hd, hmem⟩ := hrun.registered_of_called hfocus
  obtain ⟨after, inside, rfl⟩ := List.append_of_mem hd
  have hless := Nat.le_trans hrun.size_objects_le hsize
  exact (hrun.of_append.sound.unregistered hless).2.1 _ hmem

theorem Run.before_made (hrun : Run allowed (later ++ c₀ :: before) c)
    (hmakes : c₀.Makes b source name convert first k) {d : Config V} (hd : d ∈ c₀ :: before) :
    d.state.world.objects.size ≤ b ∧ ∃ past, Run allowed past d := by
  rcases List.mem_cons.1 hd with rfl | hd
  · exact ⟨Nat.le_of_eq hmakes.number, before, hrun.of_append⟩
  · obtain ⟨after, inside, rfl⟩ := List.append_of_mem hd
    have hmade := hrun.of_append
    exact ⟨Nat.le_trans hmade.size_objects_le (Nat.le_of_eq hmakes.number), inside,
      hmade.of_append⟩

/-! ## Calls of the registration -/

/-- The registration of a binding is called in rounds of its source only. -/
theorem Run.owner_of_called (hrun : Run allowed (later ++ c₀ :: before) c)
    (hmakes : c₀.Makes b source name convert first k) {rest : List Registration} {observed : Id}
    {old new : V} {kr : Stack V .round}
    (hfocus : c.focus = .round (.derived b :: rest) observed old new kr) : kr.owner = source := by
  obtain ⟨d, hd, hmem⟩ := hrun.registered_of_called hfocus
  rcases List.mem_append.1 hd with hd | hd
  · obtain ⟨inside, hinside⟩ := hrun.of_mem hd
    have hrelation := hinside.sound.world.linked.relation?_of_mem hmem rfl
    obtain ⟨v, hv⟩ := hinside.binding?_of_made hmakes (World.alive_of_relation? hrelation)
    rw [World.relation?_of_binding? hv] at hrelation
    cases hrelation
    rfl
  · obtain ⟨hless, past, hbefore⟩ := hrun.before_made hmakes hd
    exact absurd hmem ((hbefore.sound.unregistered hless).2.1 _)

theorem step_of_derived {rest : List Registration} {observed : Id} {old new : V}
    {kr : Stack V .round} (hfocus : c.focus = .round (.derived b :: rest) observed old new kr)
    {β : Binding V} (hb : c.state.world.binding? b = some β) :
    c.step = some ⟨c.state, .run (β.convert new) (.converting b (.round rest observed old new kr))⟩
    := by
  obtain ⟨s, f⟩ := c
  cases hfocus
  simp only [Config.step, State.call]
  rw [show s.world.binding? b = some β from hb]

/-- The next step calls the registration of a binding, and begins a conversion that the frames of
`k'` wait for. -/
def Converts (b : Id) (convert : V → Script V .converter) (k' : Stack V .call) (d : Config V) :
    Prop :=
  ∃ rest observed old new kr, k' = .round rest observed old new kr ∧
    d.focus = .round (.derived b :: rest) observed old new kr ∧
      d.step = some ⟨d.state, .run (convert new) (.converting b k')⟩

/-- What is converted for a binding that has been made goes back to a call of its registration. -/
theorem Run.since_converts (hrun : Run allowed (later ++ c₀ :: before) c)
    (hmakes : c₀.Makes b source name convert first k) {k' : Stack V .call}
    (hwaits : c.Waits (.converting b k')) :
    Since later (.converting b k') (Converts b convert k') := by
  obtain ⟨d, hstep, hreply, _, _⟩ := hmakes.step hrun.of_append.sound
  refine hrun.after (P := fun past c => c.Waits (.converting b k') →
    Since past (.converting b k') (Converts b convert k')) hstep ?_ ?_ ?_ hwaits
  · -- Before the binding was made no frame held it.
    intro hwaits
    unfold Waits at hwaits
    rw [hreply] at hwaits
    exact absurd (Stack.mem_holds_of_mem_tails hwaits List.mem_cons_self)
      (hmakes.not_mem_holds hrun.of_append.sound)
  · intro past c d hrun ih hnext hwaits
    rcases (Transition.of_step hnext).pushes hwaits with hold | hpushed
    · exact (ih hold).cons hold
    · cases hpushed with
      | converting hfocus =>
        have halive : d.state.world.alive b = true :=
          (hrun.step hnext).sound.alive_of_holds
            (Stack.mem_holds_of_mem_tails hwaits List.mem_cons_self)
        obtain ⟨v, hv⟩ := hrun.binding?_of_made hmakes
          ((Effect.of_transition (.of_step hnext)).alive (hrun.lt_size_of_made hmakes) halive)
        exact .of_last _ ⟨_, _, _, _, _, rfl, hfocus, step_of_derived hfocus hv⟩
  · intro past c op _ _ _ hwaits
    cases List.mem_singleton.1 hwaits

/-- A conversion that has begun goes on until its converter answers, once. -/
theorem Run.answered (hrun : Run allowed (later ++ c₀ :: before) c) {k' : Stack V .call}
    {script : Script V .converter}
    (hstep : c₀.step = some ⟨c₀.state, .run script (.converting b k')⟩) :
    (c.Waits (.converting b k') ∧ ∀ d ∈ later, d.Waits (.converting b k') ∧
        ∀ v, d.focus ≠ .run (@Script.stop V .converter v) (.converting b k')) ∨
      ∃ after d inside v, later = after ++ d :: inside ∧
        d.focus = .run (@Script.stop V .converter v) (.converting b k') ∧
          (∀ e ∈ inside, e.Waits (.converting b k') ∧
            ∀ v, e.focus ≠ .run (@Script.stop V .converter v) (.converting b k')) := by
  refine hrun.after (P := fun past c =>
    (c.Waits (.converting b k') ∧ ∀ d ∈ past, d.Waits (.converting b k') ∧
        ∀ v, d.focus ≠ .run (@Script.stop V .converter v) (.converting b k')) ∨
      ∃ after d inside v, past = after ++ d :: inside ∧
        d.focus = .run (@Script.stop V .converter v) (.converting b k') ∧
          (∀ e ∈ inside, e.Waits (.converting b k') ∧
            ∀ v, e.focus ≠ .run (@Script.stop V .converter v) (.converting b k'))) hstep ?_ ?_ ?_
  · exact .inl ⟨Stack.mem_tails_self _, fun d hd => by cases hd⟩
  · rintro past c d hrun (⟨hwaits, hopen⟩ | ⟨after, e, inside, v, rfl, hended⟩) hnext
    · rcases (Transition.of_step hnext).waits_answer hwaits with ⟨v, hfocus⟩ | ⟨hgoes, hstill⟩
      · exact .inr ⟨[], c, past, v, rfl, hfocus, hopen⟩
      · refine .inl ⟨hstill, fun e he => ?_⟩
        rcases List.mem_cons.1 he with rfl | he
        · exact ⟨hwaits, hgoes⟩
        · exact hopen e he
    · exact .inr ⟨c :: after, e, inside, v, rfl, hended⟩
  · rintro past c op hrun (⟨hwaits, hopen⟩ | ⟨after, e, inside, v, rfl, hended⟩) hreply
    · -- An operation from outside begins when nothing waits.
      obtain ⟨r, hfocus⟩ := isSome_reply?_iff.1 hreply
      unfold Waits at hwaits
      rw [hfocus] at hwaits
      cases List.mem_singleton.1 hwaits
    · exact .inr ⟨c :: after, e, inside, v, rfl, hended⟩

/-! ## What the moments since the making of a binding say -/

/-- What the moments since a binding was made say of it. -/
structure Tally (c : Config V) (b : Id) (first : V) (later : List (Config V)) : Prop where
  writes : timeline written? b later = timeline converted? b later
  rounds : (timeline opened? b later).map (·.new) = timeline converted? b later
  chain : Chain first (timeline opened? b later) ((timeline converted? b later).getLastD first)
  latest : c.state.world.alive b = true →
    c.state.world.value? b = some ((timeline converted? b later).getLastD first)
  balance : (timeline converted? b later).length + c.focus.frames.2.conversions b =
    (timeline begun? b later).length

theorem Tally.step {d : Config V} (hc : c.Sound) (htally : c.Tally b first later)
    (hstep : c.step = some d) (hlt : b < c.state.world.objects.size)
    (hshape : c.state.world.alive b = true → c.state.world.shape? b = some .binding) :
    d.Tally b first (c :: later) := by
  have hmove := Transition.of_step hstep
  have hbalance : (timeline converted? b (c :: later)).length + d.focus.frames.2.conversions b =
      (timeline begun? b (c :: later)).length := by
    have hframes := hmove.conversions b
    have hold := htally.balance
    rw [timeline_cons, timeline_cons, List.length_append, List.length_append]
    omega
  rcases hc.turn hstep hlt hshape with ⟨old, v, hconverted, hwritten, hopened, hold, hnew⟩ |
    ⟨hconverted, hwritten, hopened, hkept⟩
  · have hlast := htally.latest (World.alive_of_value? hold)
    rw [hold] at hlast
    cases hlast
    refine ⟨?_, ?_, ?_, fun _ => ?_, hbalance⟩
    · rw [timeline_cons, timeline_cons, hconverted, hwritten, htally.writes]
    · rw [timeline_cons, timeline_cons, hconverted, hopened, List.map_append, htally.rounds,
        concerning_self, concerning_self]
      rfl
    · rw [timeline_cons, timeline_cons, hconverted, hopened, concerning_self, concerning_self,
        Option.toList_some, Option.toList_some, List.getLastD_concat]
      exact htally.chain.concat
    · rw [timeline_cons, hconverted, concerning_self, Option.toList_some, List.getLastD_concat]
      exact hnew
  · refine ⟨?_, ?_, ?_, fun halive => ?_, hbalance⟩
    · rw [timeline_cons, timeline_cons, hconverted, hwritten, htally.writes]
    · rw [timeline_cons, timeline_cons, hconverted, hopened, List.map_append, htally.rounds]
      rfl
    · rw [timeline_cons, timeline_cons, hconverted, hopened, Option.toList_none,
        List.append_nil, Option.toList_none, List.append_nil]
      exact htally.chain
    · rw [timeline_cons, hconverted, Option.toList_none, List.append_nil, hkept halive]
      exact htally.latest ((Effect.of_transition hmove).alive hlt halive)

/-- An operation from outside begins without doing anything about a binding. -/
theorem Tally.perform (htally : c.Tally b first later) (hreply : c.reply?.isSome = true)
    (op : Op V) : (Config.start c.state op).Tally b first (c :: later) := by
  obtain ⟨r, hfocus⟩ := isSome_reply?_iff.1 hreply
  have hstop := (step_eq_none_iff c).2 hreply
  have hwritten : c.written? = none := by rw [written?, hfocus]
  have hconverted : c.converted? = none := by rw [converted?, hfocus]
  have hbegun : c.begun? = none := by rw [begun?, hfocus]
  have hopened : c.opened? = none := by simp [opened?, hfocus, hstop]
  have hbalance := htally.balance
  rw [hfocus] at hbalance
  have hsame : ∀ {α : Type} {f : Config V → Option (Id × α)}, f c = none →
      timeline f b (c :: later) = timeline f b later := by
    intro α f hf
    rw [timeline_cons, hf]
    exact List.append_nil _
  refine ⟨?_, ?_, ?_, ?_, ?_⟩
  · rw [hsame hwritten, hsame hconverted, htally.writes]
  · rw [hsame hopened, hsame hconverted, htally.rounds]
  · rw [hsame hopened, hsame hconverted]
    exact htally.chain
  · rw [hsame hconverted]
    exact htally.latest
  · rw [hsame hconverted, hsame hbegun]
    exact hbalance

theorem Run.tally (hrun : Run allowed (later ++ c₀ :: before) c)
    (hmakes : c₀.Makes b source name convert first k) : c.Tally b first later := by
  obtain ⟨d, hstep, hreply, _, hborn⟩ := hmakes.step hrun.of_append.sound
  refine hrun.after (P := fun past c => c.Tally b first past) hstep ?_ ?_ ?_
  · refine ⟨rfl, rfl, rfl, fun _ => World.value?_of_binding? hborn, ?_⟩
    rw [hreply]
    exact (Nat.zero_add _).trans
      (Stack.conversions_eq_zero (hmakes.not_mem_holds hrun.of_append.sound))
  · intro past c d hrun ih hnext
    exact ih.step hrun.sound hnext (hrun.lt_size_of_made hmakes) (hrun.shape?_of_made hmakes)
  · intro past c op _ ih hreply
    exact ih.perform hreply op

/-! ## The conversion that makes a binding -/

/-- The operation that makes a binding runs the converter on the value that the source has then. -/
theorem Sound.step_of_wrap (hc : c.Sound) {observed : String}
    (hfocus : c.focus = .operate (.wrap observed name convert) k)
    (hname : c.state.world.find? observed Handle.observable? = some source) :
    ∃ v, c.state.world.value? source = some v ∧
      c.step = some ⟨c.state, .run (convert v) (.wrapping source name convert k)⟩ := by
  have hvalue : ∃ v, c.state.world.value? source = some v := by
    rcases hc.world.shape?_of_observable hname with hshape | hshape
    · obtain ⟨p, hp⟩ := World.shape?_eq_property_iff.1 hshape
      exact ⟨_, World.value?_of_property? hp⟩
    · obtain ⟨β, hβ⟩ := World.shape?_eq_binding_iff.1 hshape
      exact ⟨_, World.value?_of_binding? hβ⟩
  obtain ⟨v, hv⟩ := hvalue
  obtain ⟨s, f⟩ := c
  cases hfocus
  refine ⟨v, hv, ?_⟩
  simp only [Config.step, State.operate]
  rw [show s.world.find? observed Handle.observable? = some source from hname]
  simp only
  rw [show s.world.value? source = some v from hv]

/-- The next step begins the operation that makes a binding, and with it the first conversion. -/
def Wraps (source : Id) (name : String) (convert : V → Script V .converter) (k : Stack V .reply)
    (d : Config V) : Prop :=
  ∃ observed v, d.focus = .operate (.wrap observed name convert) k ∧
    d.state.world.find? observed Handle.observable? = some source ∧
      d.state.world.value? source = some v ∧
        d.step = some ⟨d.state, .run (convert v) (.wrapping source name convert k)⟩

theorem Run.since_wraps {past : List (Config V)} (hrun : Run allowed past c)
    (hwaits : c.Waits (.wrapping source name convert k)) :
    Since past (.wrapping source name convert k) (Wraps source name convert k) := by
  induction hrun with
  | start => cases List.mem_singleton.1 hwaits
  | perform => cases List.mem_singleton.1 hwaits
  | step hrun hnext ih =>
    rcases (Transition.of_step hnext).pushes hwaits with hold | hpushed
    · exact (ih hold).cons hold
    · cases hpushed with
      | wrapping hfocus hname =>
        obtain ⟨v, hv, hstep⟩ := hrun.sound.step_of_wrap hfocus hname
        exact .of_last _ ⟨_, v, hfocus, hname, hv, hstep⟩

/-- While the first conversion goes on, no other one begins over the same frames. -/
theorem not_wraps_of_waits (hwaits : c.Waits (.wrapping source name convert k)) :
    ¬ Wraps source name convert k c := by
  rintro ⟨observed, v, hfocus, _⟩
  unfold Waits at hwaits
  rw [hfocus] at hwaits
  exact absurd (Stack.depth_le hwaits) (Nat.not_succ_le_self k.depth)

/-! ## The whole history of a binding -/

/-- What is converted, written and announced for the binding `b`, given a run that made it after
`before` and has gone through `later` since. -/
structure Conversions (later before : List (Config V)) (c c₀ : Config V) (b source : Id)
    (name : String) (convert : V → Script V .converter) (first : V) (k : Stack V .reply) :
    Prop where
  /-- The converter runs once to make the binding, on the value that the source has when the
  operation begins. -/
  initial : ∃ inside d past, before = inside ++ d :: past ∧ Wraps source name convert k d ∧
    ∀ e ∈ inside, e.Waits (.wrapping source name convert k) ∧ ¬ Wraps source name convert k e
  /-- Until it has answered, the binding is not there: it is in no list, has no name, and is not
  called. -/
  unseen : ∀ d ∈ c₀ :: before, d.state.world.alive b = false ∧
    (∀ i, .derived b ∉ d.state.world.registrations i) ∧
    (∀ n h, d.state.world.names.find? n = some h → h.numbered? ≠ some b) ∧
    ∀ rest observed old new kr, d.focus ≠ .round (.derived b :: rest) observed old new kr
  /-- Then it has the value that the converter answered with. -/
  made : ∃ d, c₀.step = some d ∧ d.focus = .reply (.done .unit) k ∧
    d.state.world.names.find? name = some (.binding b) ∧
    d.state.world.binding? b = some ⟨first, convert, source⟩ ∧
    (d.state.world.alive source = true → .derived b ∈ d.state.world.registrations source)
  /-- A call of the registration comes from a round of the source. It begins a conversion of the new
  value if the binding lives, and otherwise it ends well without one. -/
  called : ∀ rest observed old new kr, c.focus = .round (.derived b :: rest) observed old new kr →
    kr.owner = source ∧
    (c.state.world.alive b = true → c.begun? = some (b, new) ∧
      c.step = some ⟨c.state,
        .run (convert new) (.converting b (.round rest observed old new kr))⟩) ∧
    (c.state.world.alive b = false → c.begun? = none ∧
      c.step = some ⟨c.state, .called (.ok ()) (.round rest observed old new kr)⟩)
  /-- Every conversion in progress goes back to such a call. -/
  delivered : ∀ k', c.Waits (.converting b k') →
    Since later (.converting b k') (Converts b convert k')
  /-- Since its call, a conversion has been going on, or it has answered once. -/
  answered : ∀ after d inside k', later = after ++ d :: inside → Converts b convert k' d →
    (c.Waits (.converting b k') ∧ ∀ e ∈ after, e.Waits (.converting b k') ∧
        ∀ v, e.focus ≠ .run (@Script.stop V .converter v) (.converting b k')) ∨
      ∃ rest e going v, after = rest ++ e :: going ∧
        e.focus = .run (@Script.stop V .converter v) (.converting b k') ∧
          ∀ e' ∈ going, e'.Waits (.converting b k') ∧
            ∀ v, e'.focus ≠ .run (@Script.stop V .converter v) (.converting b k')
  /-- An answer is written at once, and a round announces the change from the value before it, even
  if the two are equal. -/
  finished : ∀ v k', c.focus = .run (@Script.stop V .converter v) (.converting b k') →
    ∃ old s, c.state.world.value? b = some old ∧ c.converted? = some (b, v) ∧
      c.written? = some (b, v) ∧ c.opened? = some (b, ⟨old, v⟩) ∧
      s.world = c.state.world.store b v ∧
      c.step = some ⟨s, .round (c.state.world.registrations b) b old v (.recomputing b k')⟩
  /-- Nothing else writes the binding. -/
  written : ∀ v, c.written? = some (b, v) →
    ∃ k', c.focus = .run (@Script.stop V .converter v) (.converting b k')
  kept : ∀ d, c.step = some d → d.state.world.alive b = true → (∀ v, c.written? ≠ some (b, v)) →
    d.state.world.value? b = c.state.world.value? b
  /-- Nothing else begins a round over its listeners. -/
  opened : ∀ d x, c.step = some d → c.opened? = some (b, x) →
    ∃ k', c.focus = .run (@Script.stop V .converter x.new) (.converting b k')
  /-- So the writes and the rounds are the answers, one for one, and the value is the last answer.
  As many conversions have begun as have ended or are in progress. -/
  tally : c.Tally b first later

/-- In every run, whatever callbacks do and however conversions are nested, a binding is converted,
written and announced as `Conversions` says from the moment it is made. -/
theorem Run.converted_once (hrun : Run allowed (later ++ c₀ :: before) c)
    (hmakes : c₀.Makes b source name convert first k) :
    c.Conversions later before c₀ b source name convert first k := by
  have hshape := hrun.shape?_of_made hmakes
  constructor
  case initial =>
    have hwaits : c₀.Waits (.wrapping source name convert k) := by
      rw [Waits, hmakes.focus]
      exact Stack.mem_tails_self _
    obtain ⟨inside, d, past, heq, hwraps, hinside⟩ := hrun.of_append.since_wraps hwaits
    exact ⟨inside, d, past, heq, hwraps,
      fun e he => ⟨hinside e he, not_wraps_of_waits (hinside e he)⟩⟩
  case unseen =>
    intro d hd
    obtain ⟨hless, past, hbefore⟩ := hrun.before_made hmakes hd
    obtain ⟨hdead, hlists, hnames⟩ := hbefore.sound.unregistered hless
    exact ⟨hdead, hlists, hnames, hbefore.not_called hless⟩
  case made =>
    have hsound := hrun.of_append.sound
    obtain ⟨d, hstep, hreply, hname, hborn⟩ := hmakes.step hsound
    refine ⟨d, hstep, hreply, hname, hborn, fun halive => ?_⟩
    exact (hsound.transition (.of_step hstep)).world.linked.mem_of_relation? halive
      (World.relation?_of_binding? hborn)
  case called =>
    intro rest observed old new kr hfocus
    refine ⟨hrun.owner_of_called hmakes hfocus, fun halive => ?_, fun hdead => ?_⟩
    · obtain ⟨v, hv⟩ := hrun.binding?_of_made hmakes halive
      refine ⟨?_, step_of_derived hfocus hv⟩
      simp [begun?, hfocus, hv]
    · have hnone : c.state.world.binding? b = none := by
        rw [World.alive, Option.isSome_eq_false_iff, Option.isNone_iff_eq_none] at hdead
        rw [World.binding?, hdead]
        rfl
      refine ⟨?_, step_of_dead_target hfocus rfl hdead⟩
      simp [begun?, hfocus, hnone]
  case delivered => exact fun k' hwaits => hrun.since_converts hmakes hwaits
  case answered =>
    rintro after d inside k' rfl ⟨_, _, _, _, _, _, _, hstep⟩
    rw [List.append_assoc] at hrun
    exact hrun.answered hstep
  case finished =>
    intro v k' hfocus
    obtain ⟨old, s, hold, hworld, hstep⟩ := hrun.sound.step_of_converted hfocus
    refine ⟨old, s, hold, ?_, ?_, ?_, hworld, hstep⟩
    · rw [converted?, hfocus]
      rfl
    · rw [written?, hfocus]
      exact congrArg (Option.map fun _ => (b, v)) hold
    · exact opened?_of_round hstep rfl fun r k' h => by rw [hfocus] at h; cases h
  case written =>
    exact fun v hwritten => focus_of_converted? (hrun.sound.converted?_of_written? hshape hwritten)
  case kept =>
    intro d hstep halive hwritten
    have hlt := hrun.lt_size_of_made hmakes
    exact (Effect.of_transition (.of_step hstep)).value? hlt halive hwritten
  case opened =>
    intro d x hstep hopened
    exact focus_of_converted? (hrun.sound.converted?_of_opened? hstep hshape hopened)
  case tally => exact hrun.tally hmakes

end

/-- A converter sets the source once more before it answers. The inner conversion ends first; both
answer the same value, and both are written and announced. -/
theorem converted_once_nested : ∃ (later before : List (Config Nat)) (c₀ c : Config Nat)
    (convert : Nat → Script Nat .converter),
    Run (fun _ => True) (later ++ c₀ :: before) c ∧ c₀.Makes 1 0 "b" convert 5 .idle ∧
      timeline begun? 1 later = [1, 2] ∧ timeline converted? 1 later = [7, 7] ∧
      timeline opened? 1 later = [⟨5, 7⟩, ⟨7, 7⟩] ∧
      c.Conversions later before c₀ 1 0 "b" convert 5 .idle := by
  have hproperty : Run (fun _ => True) _
      (start {} (.act (.property "p" 0 (fun v => .stop (.ok v)) none))) := .start trivial
  have hwrap : Run (fun _ => True) _ (start _ (.wrap "p" "b" fun v =>
      if v = 0 then .stop (5 : Nat)
      else if v = 1 then .perform (.set "p" 2) fun _ => .stop (7 : Nat)
      else .stop (7 : Nat))) := (hproperty.step rfl).perform rfl trivial
  have hset : Run (fun _ => True) _ (start _ (.set "p" 1)) :=
    ((hwrap.step rfl).step rfl).perform rfl trivial
  have hlast := hset.iterate 40
  rw [← List.singleton_append, ← List.append_assoc] at hlast
  exact ⟨_, _, _, _, _, hlast, ⟨rfl, rfl⟩, rfl, rfl, rfl, hlast.converted_once ⟨rfl, rfl⟩⟩

end Config

end Observable
