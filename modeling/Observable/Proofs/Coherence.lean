import Observable.Proofs.Nesting

/-!
# Dependent values agree with their sources

After every operation of a quiet run in which no `set` failed in a callback, a binding has what its
converter makes of the value of its source, and a bound property has what its validator makes of it,
up to the equality of values, once the source was written after the property was bound
(`Config.Run.mirrors_of_reply`). Binding a property does not pull the value of the source.

While a change is passed on, some objects do not agree with their sources yet: those that a round
in progress has still to call, and the one whose new value is being computed. Every other object
agrees, unless a failure is on its way to `set` (`Config.Coherent`, which every step keeps:
`Config.Run.coherent`). The equality test of an update may stop a change on its way, which leaves
the objects below as they agreed before.
-/

namespace Observable

variable {V : Type}

/-! ## Agreement -/

/-- A property has the value that its validator makes of `x`, or an equal one. -/
def Property.Mirrors [BEq V] (p : Property V) (x : V) : Prop :=
  ∃ y, (p.validate x).answer? = some (.ok y) ∧ (p.value = y ∨ (p.value == y) = true)

/-- A binding has the value that its converter makes of `x`. -/
def Binding.Mirrors (b : Binding V) (x : V) : Prop := (b.convert x).answer? = some b.value

def Body.Mirrors [BEq V] : Body V → V → Prop
  | .property p, x => p.Mirrors x
  | .binding b, x => b.Mirrors x
  | .bare, _ => True

namespace World

/-- The property that an action binds successfully. -/
def bound? (w : World V) : Action V → Option Id
  | .bind name target =>
    (w.find? name Handle.property?).bind fun i =>
      (w.find? target Handle.observable?).bind fun source =>
        match (w.bind i source).reply with
        | .done _ => some i
        | _ => none
  | _ => none

theorem bound?_of_bind {w : World V} {name target : String} {i source : Id} {p : Property V}
    (hname : w.find? name Handle.property? = some i)
    (htarget : w.find? target Handle.observable? = some source)
    (hp : w.property? i = some p) (hfree : p.source = none) (hne : i ≠ source) :
    w.bound? (.bind name target) = some i := by
  have hreply : (w.bind i source).reply = .done .unit := by
    simp [World.bind, withLive, hp, hne, hfree]
  simp [bound?, hname, htarget, hreply]

/-- An object that outlives an edit keeps its body, unless it is bound or ends up free. -/
theorem Edit.body?_cases {w w' : World V} {held : List Id} {a : Action V}
    (hedit : w.Edit held a w') {t : Id} (hlt : t < w.objects.size)
    (halive : w'.alive t = true) :
    w'.body? t = w.body? t ∨ w.bound? a = some t ∨ w'.relation? t = none := by
  by_cases hrebound : w.rebound? a = some t
  · cases hedit with
    | read => exact .inl rfl
    | bind hname htarget hp hfree hne =>
      rw [rebound?, hname] at hrebound
      cases hrebound
      exact .inr (.inl (bound?_of_bind hname htarget hp hfree hne))
    | @unbind name i source p hname hp hbound =>
      rw [rebound?, hname] at hrebound
      cases hrebound
      refine .inr (.inr ?_)
      rw [relation?_unregister, relation?_follow hp, if_pos rfl]
      rfl
    | add hadd =>
      left
      exact body?_register ..
    | remove hremove =>
      left
      exact body?_unregister ..
    | _ => cases hrebound
  · exact .inl (hedit.body? hlt halive hrebound)

end World

/-! ## What the past owes -/

namespace Config

/-- The property that the next step binds. -/
def bound? (c : Config V) : Option Id :=
  match c.focus with
  | .operate (.act a) _ => c.state.world.bound? a
  | _ => none

/-- The failure with which the next step ends `set`. -/
def setFailure? (c : Config V) : Option Error :=
  match c.focus with
  | .updated (.error e) (.setting _ _) => some e
  | _ => none

variable [BEq V]

/-- What is counted as a failure of `set` is what `set` returns. -/
theorem step_of_setFailure? {c : Config V} {e : Error} (hfailure : c.setFailure? = some e) :
    ∃ s below, c.step = some ⟨s, .reply (.failed e) below⟩ := by
  obtain ⟨s, f⟩ := c
  unfold setFailure? at hfailure
  split at hfailure
  · next e' i below hfocus =>
    cases hfailure
    cases hfocus
    exact ⟨_, below, rfl⟩
  · cases hfailure

/-- The value of the object `u` was written since the property `t` was last bound. -/
def WrittenSinceBind : List (Config V) → Id → Id → Prop
  | [], _, _ => False
  | c :: past, t, u =>
    c.bound? ≠ some t ∧ ((∃ v, c.written? = some (u, v)) ∨ WrittenSinceBind past t u)

instance decidableWrittenSinceBind :
    (past : List (Config V)) → (t u : Id) → Decidable (WrittenSinceBind past t u)
  | [], _, _ => isFalse id
  | c :: past, t, u =>
    have : Decidable (∃ v, c.written? = some (u, v)) :=
      decidable_of_iff (c.written?.map (·.1) = some u) <| by
        rw [Option.map_eq_some_iff]
        constructor
        · rintro ⟨⟨j, v⟩, hwritten, rfl⟩
          exact ⟨v, hwritten⟩
        · rintro ⟨v, hwritten⟩
          exact ⟨_, hwritten, rfl⟩
    have := decidableWrittenSinceBind past t u
    inferInstanceAs (Decidable (_ ∧ (_ ∨ _)))

/-- An object has to agree with its source `u`, a binding always and a property once `u` was
written. -/
def Owes (past : List (Config V)) (t u : Id) : Body V → Prop
  | .property _ => WrittenSinceBind past t u
  | .binding _ => True
  | .bare => False

theorem Owes.before {c : Config V} {past : List (Config V)} {t u : Id} {b : Body V}
    (howes : Owes (c :: past) t u b) (hwritten : ∀ v, c.written? ≠ some (u, v)) :
    Owes past t u b := by
  cases b with
  | property p =>
    rcases howes.2 with ⟨v, hv⟩ | hbefore
    · exact absurd hv (hwritten v)
    · exact hbefore
  | binding b => trivial
  | bare => exact howes

omit [BEq V] in
/-- The object whose new value is being computed. -/
def inHand? (c : Config V) : Option Id :=
  match c.focus with
  | .run _ (.validating _ below) => below.followed?
  | .run _ (.converting t _) => some t
  | _ => none

omit [BEq V] in
/-- A failure is on its way to `set`. -/
def Failing (c : Config V) : Prop := c.focus.error?.isSome = true ∧ c.focus.Rooted

/-- What has to agree with its source agrees, or it will be dealt with before the operation that was
performed from outside ends, or that operation is a `set` and fails. -/
def Coherent (past : List (Config V)) (c : Config V) : Prop :=
  ∀ t u r b x, c.state.world.body? t = some b → c.state.world.relation? t = some (u, r) →
    c.state.world.value? u = some x → Owes past t u b →
      b.Mirrors x ∨ r ∈ c.focus.pending ∨ c.inHand? = some t ∨ c.Failing

omit [BEq V] in
theorem not_failing {c : Config V} (herror : c.focus.error? = none) : ¬ c.Failing := by
  rintro ⟨hsome, _⟩
  rw [herror] at hsome
  cases hsome

theorem Coherent.of_failing {past : List (Config V)} {c : Config V} (hc : c.Failing) :
    c.Coherent past := by
  intro t u r b x _ _ _ _
  exact .inr (.inr (.inr hc))

/-- Where nothing is in progress, everything that has to agree with its source does. -/
theorem Coherent.mirrors {past : List (Config V)} {c : Config V} (hcoherent : c.Coherent past)
    (hpending : c.focus.pending = []) (hhand : c.inHand? = none) (hfailing : ¬ c.Failing)
    {t u : Id} {r : Registration} {b : Body V} {x : V} (hb : c.state.world.body? t = some b)
    (hr : c.state.world.relation? t = some (u, r)) (hx : c.state.world.value? u = some x)
    (howes : Owes past t u b) : b.Mirrors x := by
  rcases hcoherent t u r b x hb hr hx howes with h | h | h | h
  · exact h
  · rw [hpending] at h
    cases h
  · rw [hhand] at h
    cases h
  · exact absurd h hfailing

/-- A step that changes no body keeps what agrees, and it passes on what has still to be done. -/
theorem Coherent.still {past : List (Config V)} {c d : Config V} (hcoherent : c.Coherent past)
    (hbody : ∀ t, d.state.world.body? t = c.state.world.body? t) (hwritten : c.written? = none)
    (hpending : ∀ t u r, c.state.world.relation? t = some (u, r) → r ∈ c.focus.pending →
      r ∈ d.focus.pending ∨ d.inHand? = some t)
    (hhand : ∀ t u r b x, c.inHand? = some t → c.state.world.body? t = some b →
      c.state.world.relation? t = some (u, r) → c.state.world.value? u = some x →
        b.Mirrors x ∨ d.inHand? = some t)
    (hfailing : ¬ c.Failing) : d.Coherent (c :: past) := by
  intro t u r b x hb hr hx howes
  rw [hbody] at hb
  rw [World.relation?_eq_body?, hbody, ← World.relation?_eq_body?] at hr
  rw [World.value?_eq_body?, hbody, ← World.value?_eq_body?] at hx
  have howes' : Owes past t u b := by
    apply howes.before
    intro v hv
    rw [hwritten] at hv
    cases hv
  rcases hcoherent t u r b x hb hr hx howes' with h | h | h | h
  · exact .inl h
  · rcases hpending t u r hr h with h | h
    · exact .inr (.inl h)
    · exact .inr (.inr (.inl h))
  · rcases hhand t u r b x h hb hr hx with h | h
    · exact .inl h
    · exact .inr (.inr (.inl h))
  · exact absurd h hfailing

/-- A write makes the written object agree with its source, and announces itself to what the object
is the source of. -/
theorem Coherent.store {past : List (Config V)} {c d : Config V} (hcoherent : c.Coherent past)
    (hc : c.Sound) {i : Id} {v : V} (hwritten : c.written? = some (i, v))
    (hworld : d.state.world = c.state.world.store i v)
    (hregistrations : ∀ r ∈ c.state.world.registrations i, r ∈ d.focus.pending)
    (hpending : ∀ r ∈ c.focus.pending, r ∈ d.focus.pending)
    (hhand : ∀ t, c.inHand? = some t → t = i)
    (hself : ∀ u r b x, d.state.world.body? i = some b → c.state.world.relation? i = some (u, r) →
      d.state.world.value? u = some x → b.Mirrors x)
    (hfailing : ¬ c.Failing) : d.Coherent (c :: past) := by
  intro t u r b x hb hr hx howes
  have hr' : c.state.world.relation? t = some (u, r) := by
    rw [hworld, World.relation?_store] at hr
    exact hr
  by_cases hui : u = i
  · -- The source is what is written, so the object is in the list that is announced to.
    right
    left
    apply hregistrations
    rw [← hui]
    apply hc.world.linked.mem_of_relation? _ hr'
    rw [← World.alive_congr (World.shape?_store c.state.world i u v), ← hworld]
    exact World.alive_of_value? hx
  · by_cases hti : t = i
    · left
      subst hti
      exact hself u r b x hb hr' hx
    · have hb' : c.state.world.body? t = some b := by
        rw [hworld, World.body?_store_of_ne _ (Ne.symm hti)] at hb
        exact hb
      have hx' : c.state.world.value? u = some x := by
        rw [hworld, World.value?_store, if_neg (Ne.symm hui)] at hx
        exact hx
      have howes' : Owes past t u b := by
        apply howes.before
        intro v' hv'
        rw [hwritten] at hv'
        cases hv'
        exact hui rfl
      rcases hcoherent t u r b x hb' hr' hx' howes' with h | h | h | h
      · exact .inl h
      · exact .inr (.inl (hpending r h))
      · exact absurd (hhand t h) hti
      · exact absurd h hfailing

/-! ## Operations that run no callback, and new bindings -/

omit [BEq V] in
theorem shape?_of_bound? {c : Config V} (hc : c.Sound) {t : Id} (hbound : c.bound? = some t) :
    c.state.world.shape? t = some .property := by
  unfold bound? at hbound
  split at hbound
  · next a k hfocus =>
    cases a with
    | bind name target =>
      obtain ⟨i, hname, hrest⟩ := Option.bind_eq_some_iff.1 hbound
      obtain ⟨source, _, hlast⟩ := Option.bind_eq_some_iff.1 hrest
      split at hlast
      · cases hlast
        exact hc.world.shape?_of_property hname
      · cases hlast
    | _ => cases hbound
  · cases hbound

/-- What agreed before an operation without callbacks agrees after it. -/
theorem Coherent.edit {past : List (Config V)} {c d : Config V} (hcoherent : c.Coherent past)
    (hc : c.Sound) {a : Action V} (hfocus : c.focus = .operate (.act a) .idle) {held : List Id}
    (hedit : c.state.world.Edit held a d.state.world) : d.Coherent (c :: past) := by
  intro t u r b x hb hr hx howes
  left
  have halive : d.state.world.alive t = true := World.alive_iff_body?.2 ⟨b, hb⟩
  have hlt : t < c.state.world.objects.size := by
    apply Nat.lt_of_not_le
    intro hsize
    rw [hedit.relation?_of_size_le hsize] at hr
    cases hr
  rcases hedit.body?_cases hlt halive with hsame | hbound | hfree
  · have hb' : c.state.world.body? t = some b := by
      rw [← hsame]
      exact hb
    have hr' : c.state.world.relation? t = some (u, r) := by
      rw [World.relation?_eq_body?, ← hsame, ← World.relation?_eq_body?]
      exact hr
    have hx' : c.state.world.value? u = some x := by
      rw [← hedit.value? (hc.world.linked.source t u r hr').1 (World.alive_of_value? hx)]
      exact hx
    have howes' : Owes past t u b := by
      apply howes.before
      intro v hv
      rw [written?, hfocus] at hv
      cases hv
    have hidle : c.focus.pending = [] ∧ c.inHand? = none ∧ c.focus.error? = none := by
      rw [inHand?, hfocus]
      exact ⟨rfl, rfl, rfl⟩
    exact hcoherent.mirrors hidle.1 hidle.2.1 (not_failing hidle.2.2) hb' hr' hx' howes'
  · -- The property was just bound, so it owes nothing yet.
    have hbound' : c.bound? = some t := by
      rw [bound?, hfocus]
      exact hbound
    cases b with
    | property p => exact absurd hbound' howes.1
    | binding b =>
      have hshape := (hedit.shape? hlt halive).trans (shape?_of_bound? hc hbound')
      rw [World.shape?_eq_body?, hb] at hshape
      cases hshape
    | bare => exact howes.elim
  · rw [hfree] at hr
    cases hr

/-- A new binding has what its converter made of the present value of its source. -/
theorem Coherent.wrap {past : List (Config V)} {s : State V} {i : Id} {name : String}
    {convert : V → Script V .converter} {v : V}
    (hcoherent : Coherent past
      ⟨s, .run (@Script.stop V .converter v) (.wrapping i name convert .idle)⟩)
    (hc : Sound ⟨s, .run (@Script.stop V .converter v) (.wrapping i name convert .idle)⟩)
    (hanswers : ∀ x, s.world.value? i = some x → some v = (convert x).answer?) :
    (s.wrap i name convert v .idle).Coherent
      (⟨s, .run (@Script.stop V .converter v) (.wrapping i name convert .idle)⟩ :: past) := by
  intro t u r b x hb hr hx howes
  left
  have houtlived := outlived_wrap s i name convert v .idle
  have heffect := Effect.of_transition (Transition.wrapped s i name convert v .idle)
  have halive : (s.wrap i name convert v .idle).state.world.alive t = true :=
    World.alive_iff_body?.2 ⟨b, hb⟩
  have hvalue : ∀ j, j < s.world.objects.size →
      (s.wrap i name convert v .idle).state.world.value? j = some x →
        s.world.value? j = some x := by
    intro j hj hjx
    rw [← heffect.value? hj (World.alive_of_value? hjx) fun _ hw => by cases hw]
    exact hjx
  rw [World.relation?_eq_body?, hb, Option.bind_some] at hr
  rw [houtlived.body t halive, body?_wrap] at hb
  by_cases hborn : t = s.world.objects.size
  · -- The new binding itself.
    rw [if_pos hborn] at hb
    cases hb
    cases hr
    have hi : i < s.world.objects.size := by
      rcases hc.frames.1 with hshape | hshape
      · exact World.lt_size_of_shape? hshape
      · exact World.lt_size_of_shape? hshape
    exact (hanswers x (hvalue i hi hx)).symm
  · rw [if_neg hborn] at hb
    have hr' : s.world.relation? t = some (u, r) := by
      rw [World.relation?_eq_body?, hb]
      exact hr
    have hx' := hvalue u (hc.world.linked.source t u r hr').1 hx
    have howes' : Owes past t u b := howes.before fun _ hw => by cases hw
    exact hcoherent.mirrors rfl rfl (not_failing rfl) hb hr' hx' howes'

/-! ## Updates -/

omit [BEq V] in
theorem failing_fail (s : State V) (e : Error) {k : Stack V .update} (hk : k.Rooted) :
    (s.fail e k).Failing :=
  State.fail_cases (P := Failing) ⟨rfl, hk⟩ fun _ _ _ _ => ⟨rfl, hk⟩

omit [BEq V] in
/-- The property that a change is passed on to. -/
theorem property?_of_followed? {c : Config V} (hc : c.Sound) {run : Script V .validator} {i t : Id}
    {k : Stack V .update} (hfocus : c.focus = .run run (.validating i k))
    (ht : k.followed? = some t) : k.updated = t ∧ ∃ p, c.state.world.property? t = some p := by
  have hfits := hc.frames
  rw [hfocus] at hfits
  cases k with
  | setting j k => cases ht
  | following j k =>
    cases ht
    exact ⟨rfl, World.shape?_eq_property_iff.1 hfits.1⟩

/-- A validated value that equals the old one. -/
theorem mirrors_unchanged {s : State V} {i : Id} {k : Stack V .update} {old v : V}
    (hc : Sound ⟨s, .run (@Script.stop V .validator (.ok v)) (.validating i k)⟩)
    (hnested : Nested ⟨s, .run (@Script.stop V .validator (.ok v)) (.validating i k)⟩)
    (hold : s.world.value? k.updated = some old) (heq : (old == v) = true) {t u : Id}
    {r : Registration} {b : Body V} {x : V} (ht : k.followed? = some t)
    (hb : s.world.body? t = some b) (hr : s.world.relation? t = some (u, r))
    (hx : s.world.value? u = some x) : b.Mirrors x := by
  obtain ⟨hupdated, p, hp⟩ := property?_of_followed? hc rfl ht
  rw [World.body?_of_property? hp] at hb
  cases hb
  have hsource := World.source_of_property? hp hr
  have hvalue : p.value = old := by
    rw [hupdated, World.value?_of_property? hp] at hold
    exact Option.some.inj hold
  have hanswer := hnested.answers t p x ht hp (by rw [hsource]; exact hx)
  refine ⟨v, hanswer.symm, .inr ?_⟩
  rw [hvalue]
  exact heq

/-- A validated value that is stored in a bound property. -/
theorem mirrors_written {s : State V} {i : Id} {k : Stack V .update} {v : V}
    (hc : Sound ⟨s, .run (@Script.stop V .validator (.ok v)) (.validating i k)⟩)
    (hquiet : IsQuiet ⟨s, .run (@Script.stop V .validator (.ok v)) (.validating i k)⟩)
    (hnested : Nested ⟨s, .run (@Script.stop V .validator (.ok v)) (.validating i k)⟩) {u : Id}
    {r : Registration} {b : Body V} {x : V}
    (hb : (s.world.store k.updated v).body? k.updated = some b)
    (hr : s.world.relation? k.updated = some (u, r))
    (hx : (s.world.store k.updated v).value? u = some x) : b.Mirrors x := by
  have hline : s.world.IsLine k.line := hnested.line
  cases k with
  | setting j k =>
    have hidle : k = .idle := Stack.IsQuiet.eq_idle hquiet.focus.2
    subst hidle
    have hfree : s.world.relation? j = none := hline
    have hbound : s.world.relation? j = some (u, r) := hr
    rw [hfree] at hbound
    cases hbound
  | following j k =>
    obtain ⟨_, p, hp⟩ := property?_of_followed? (t := j) hc rfl rfl
    have hr' : s.world.relation? j = some (u, r) := hr
    have hother : u ≠ j := World.IsLine.source_ne (l := k.line) hline hr'
    have hx' : s.world.value? u = some x := by
      have hstored : (s.world.store j v).value? u = some x := hx
      rw [World.value?_store, if_neg (Ne.symm hother)] at hstored
      exact hstored
    have hsource := World.source_of_property? hp hr'
    have hanswer := hnested.answers j p x rfl hp (by rw [hsource]; exact hx')
    have hb' : (s.world.store j v).body? j = some b := hb
    rw [World.body?_store_self, World.body?_of_property? hp] at hb'
    cases hb'
    exact ⟨v, hanswer.symm, .inl rfl⟩

/-- A converted value that is stored in a binding. -/
theorem mirrors_converted {s : State V} {i : Id} {k : Stack V .call} {v : V}
    (hc : Sound ⟨s, .run (@Script.stop V .converter v) (.converting i k)⟩)
    (hnested : Nested ⟨s, .run (@Script.stop V .converter v) (.converting i k)⟩) {u : Id}
    {r : Registration} {b : Body V} {x : V} (hb : (s.world.store i v).body? i = some b)
    (hr : s.world.relation? i = some (u, r)) (hx : (s.world.store i v).value? u = some x) :
    b.Mirrors x := by
  obtain ⟨q, hq⟩ := World.shape?_eq_binding_iff.1 hc.frames.1
  -- The write does not touch the source, so the converter was given its present value.
  have hother : u ≠ i := World.IsLine.source_ne (l := k.line) hnested.line hr
  rw [World.value?_store, if_neg (Ne.symm hother)] at hx
  have hsource := World.source_of_binding? hq hr
  have hanswer := hnested.answers q x hq (by rw [hsource]; exact hx)
  rw [World.body?_store_self, World.body?_of_binding? hq] at hb
  cases hb
  exact hanswer.symm

/-! ## Every step keeps what agrees -/

/-- A step in which nothing is computed, nothing fails and nothing is passed on. -/
theorem Coherent.idle {past : List (Config V)} {c d : Config V} (hcoherent : c.Coherent past)
    (hbody : ∀ t, d.state.world.body? t = c.state.world.body? t) (hwritten : c.written? = none)
    (hhand : c.inHand? = none)
    (hpending : ∀ r ∈ c.focus.pending, r ∈ d.focus.pending) (hfailing : ¬ c.Failing) :
    d.Coherent (c :: past) := by
  apply hcoherent.still hbody hwritten (fun _ _ r _ hr => .inl (hpending r hr)) _ hfailing
  intro t u r b x ht
  rw [hhand] at ht
  cases ht

/-- A step that passes over a registration which belongs to no object. -/
theorem Coherent.pass {past : List (Config V)} {c d : Config V} (hcoherent : c.Coherent past)
    (hbody : ∀ t, d.state.world.body? t = c.state.world.body? t) {q : Registration}
    {rest : List Registration} {observed : Id} {old new : V} {k : Stack V .round}
    (hfocus : c.focus = .round (q :: rest) observed old new k)
    (hq : ∀ t u, c.state.world.relation? t = some (u, q) → d.inHand? = some t)
    (hpending : ∀ r ∈ rest ++ k.pending, r ∈ d.focus.pending) : d.Coherent (c :: past) := by
  apply hcoherent.still hbody
  · rw [written?, hfocus]
  · intro t u r hr hmem
    rw [hfocus] at hmem
    rcases List.mem_cons.1 hmem with heq | hmem
    · rw [heq] at hr
      exact .inr (hq t u hr)
    · exact .inl (hpending r hmem)
  · intro t u r b x ht
    rw [inHand?, hfocus] at ht
    cases ht
  · apply not_failing
    rw [hfocus]
    rfl

theorem Coherent.transition {past : List (Config V)} {c d : Config V} (hc : c.Sound)
    (hquiet : c.IsQuiet) (hnamed : c.IsNamed) (hnested : c.Nested)
    (hclean : ∀ e, c.setFailure? = some e → e.stage? = none) (hcoherent : c.Coherent past)
    (hmove : c.Transition d) : d.Coherent (c :: past) := by
  have hframes := hnested.frames
  cases hmove with
  | act s a k =>
    have hidle := hquiet.focus.2.eq_idle
    subst hidle
    exact hcoherent.edit hc rfl (s.world.edit_act _ a)
  -- Nothing is written, and what has still to be called stays the same.
  | setUnknown | setBound | set | notifyUnknown | wrapUnknown | wrap | announced | roundDone
  | listened | listenFailed | called =>
    exact hcoherent.idle (fun _ => rfl) rfl rfl (fun _ hr => hr) (not_failing rfl)
  | notify =>
    exact hcoherent.idle (fun _ => rfl) rfl rfl (fun _ hr => List.mem_append_right _ hr)
      (not_failing rfl)
  | resume => exact hquiet.focus.elim
  | perform => exact absurd hquiet.focus.1 Script.not_isPassive_perform
  | emit s e rest k =>
    -- A reporter may be running on behalf of a failure.
    by_cases hfailing : Failing ⟨s, .run (.emit e rest) k⟩
    · exact .of_failing hfailing
    · have hhand : inHand? ⟨s.emit e, .run rest k⟩ = inHand? ⟨s, .run (.emit e rest) k⟩ := by
        cases k <;> rfl
      refine hcoherent.still (fun _ => rfl) rfl (fun _ _ _ _ hr => .inl hr) ?_ hfailing
      intro t u r b x ht _ _ _
      exact .inr (hhand.trans ht)
  | @gone s k i v hgone =>
    refine hcoherent.still (fun _ => rfl) ?_ (fun _ _ _ _ hr => .inl hr) ?_ (not_failing rfl)
    · simp [written?, State.written?, hgone]
    · -- A property with a source has a value, so it is not the one that is gone.
      intro t u r b x ht _ hr _
      obtain ⟨v, hv⟩ := World.value?_of_relation? hr
      rw [← (property?_of_followed? hc rfl ht).1, hgone] at hv
      cases hv
  | @unchanged s k old v i hold heq =>
    refine hcoherent.still (fun _ => rfl) ?_ (fun _ _ _ _ hr => .inl hr) ?_ (not_failing rfl)
    · simp [written?, State.written?, hold, heq]
    · intro t u r b x ht hb hr hx
      exact .inl (mirrors_unchanged hc hnested hold heq ht hb hr hx)
  | @write s k old v i hold hne =>
    apply hcoherent.store hc (i := k.updated) (v := v) _ rfl
      (fun _ hr => List.mem_append_left _ hr) (fun _ hr => List.mem_append_right _ hr) _ _
      (not_failing rfl)
    · simp [written?, State.written?, hold, hne]
    · intro t ht
      exact (property?_of_followed? hc rfl ht).1.symm
    · intro u r b x hb hr hx
      exact mirrors_written hc hquiet hnested hb hr hx
  | reject s i c k =>
    have hk : k.Nested s.world := hframes
    exact .of_failing (failing_fail s _ hk.rooted)
  | reported s i e a k =>
    have hk : k.Nested s.world := hframes
    exact .of_failing ⟨rfl, hk.rooted⟩
  | announceFailed s i old e k => exact .of_failing (failing_fail s e hframes.2.rooted)
  | setDone s r i k =>
    cases r with
    | ok old =>
      rw [release_of_named hnamed]
      exact hcoherent.idle (fun _ => rfl) rfl rfl (fun _ hr => hr) (not_failing rfl)
    | error e =>
      -- A failure that reaches `set` came from a callback, which was excluded.
      have hstaged := hnested.staged e rfl
      rw [hclean e rfl] at hstaged
      cases hstaged
  | followed s r i k =>
    cases r with
    | ok old =>
      rw [release_of_named hnamed]
      exact hcoherent.idle (fun _ => rfl) rfl rfl (fun _ hr => hr) (not_failing rfl)
    | error e => exact .of_failing ⟨rfl, hframes.1⟩
  | wrapped s i name convert v k =>
    have hidle := hquiet.focus.2.2.eq_idle
    subst hidle
    exact hcoherent.wrap hc hnested.answers
  | @convertedGone s i v k hgone =>
    rw [release_of_named hnamed]
    refine hcoherent.still (fun _ => rfl) ?_ (fun _ _ _ _ hr => .inl hr) ?_ (not_failing rfl)
    · rw [written?_converting, hgone]
      rfl
    · intro t u r b x ht _ hr _
      obtain ⟨v, hv⟩ := World.value?_of_relation? hr
      cases ht
      rw [hgone] at hv
      cases hv
  | @converted s i old v k hold =>
    apply hcoherent.store hc (i := i) (v := v) _ rfl
      (fun _ hr => List.mem_append_left _ hr) (fun _ hr => List.mem_append_right _ hr) _ _
      (not_failing rfl)
    · rw [written?_converting, hold]
      rfl
    · intro t ht
      cases ht
      rfl
    · intro u r b x hb hr hx
      exact mirrors_converted hc hnested hb hr hx
  | recomputed s r i k =>
    cases r with
    | ok _ =>
      rw [release_of_named hnamed]
      exact hcoherent.idle (fun _ => rfl) rfl rfl (fun _ hr => hr) (not_failing rfl)
    | error e => exact .of_failing ⟨rfl, hframes.1⟩
  | callGone | send | listen =>
    refine hcoherent.pass (fun _ => rfl) rfl ?_ fun _ hr => hr
    intro t u hr
    cases World.target?_of_relation? hr
  | boundGone rest observed old new k hgone =>
    refine hcoherent.pass (fun _ => rfl) rfl ?_ fun _ hr => hr
    intro t u hr
    rcases World.dependent_of_relation? hr with ⟨p, hp, _, heq⟩ | ⟨b, _, _, heq⟩
    · cases heq
      rw [hgone] at hp
      cases hp
    · cases heq
  | derivedGone rest observed old new k hgone =>
    refine hcoherent.pass (fun _ => rfl) rfl ?_ fun _ hr => hr
    intro t u hr
    rcases World.dependent_of_relation? hr with ⟨p, _, _, heq⟩ | ⟨b, hb, _, heq⟩
    · cases heq
    · cases heq
      rw [hgone] at hb
      cases hb
  | deliver | convert =>
    refine hcoherent.pass (fun _ => rfl) rfl ?_ fun _ hr => hr
    intro t u hr
    exact World.target?_of_relation? hr
  | callFailed s rest observed old new e k =>
    -- The failure goes on to `set`, or it ends the round of a bare set.
    by_cases hrooted : k.Rooted
    · exact .of_failing ⟨rfl, hrooted⟩
    · refine hcoherent.still (fun _ => rfl) rfl ?_ (fun _ _ _ _ _ ht => by cases ht)
        fun h => hrooted h.2
      intro t u r hr hmem
      rcases List.mem_append.1 hmem with hmem | hmem
      · -- Only listeners are registered with a set that belongs to no observable.
        have hround := relation?_of_round hc.world.linked hframes hmem
          (World.target?_of_relation? hr)
        exact absurd hround.2.2 hrooted
      · exact .inl hmem
  | notified s r i j k =>
    have hidle : k = .idle := Stack.IsQuiet.eq_idle hquiet.focus
    subst hidle
    rw [release_of_named hnamed, release_of_named hnamed]
    exact hcoherent.idle (fun _ => rfl) rfl rfl (fun _ hr => hr) fun h => h.2

theorem Run.coherent {past : List (Config V)} {c : Config V} (hrun : Run Op.IsQuiet past c)
    (hclean : ∀ d ∈ past, ∀ e, d.setFailure? = some e → e.stage? = none) : c.Coherent past := by
  induction hrun with
  | start hop =>
    intro t u r b x hb
    cases hb
  | @step past c d hrun hstep ih =>
    have hbefore := ih fun e he => hclean e (List.mem_cons_of_mem _ he)
    exact hbefore.transition hrun.sound hrun.quiet hrun.named hrun.nested
      (hclean c List.mem_cons_self) (.of_step hstep)
  | @perform past c op hrun hreply hop ih =>
    have hbefore := ih fun e he => hclean e (List.mem_cons_of_mem _ he)
    obtain ⟨r, hfocus⟩ := isSome_reply?_iff.1 hreply
    obtain ⟨s, f⟩ := c
    cases hfocus
    exact hbefore.idle (fun _ => rfl) rfl rfl (fun _ hr => hr) (not_failing rfl)

/-- After an operation of a quiet run, and as long as no `set` failed in a callback, every binding
has what its converter makes of the value of its source, and so does every bound property with its
validator, up to the equality of values, whose source was written since it was bound. -/
theorem Run.mirrors_of_reply {past : List (Config V)} {c : Config V}
    (hrun : Run Op.IsQuiet past c) (hreply : c.reply?.isSome = true)
    (hclean : ∀ d ∈ past, ∀ e, d.setFailure? = some e → e.stage? = none) :
    (∀ i b x, c.state.world.binding? i = some b → c.state.world.value? b.source = some x →
      b.Mirrors x) ∧
    ∀ i p u x, c.state.world.property? i = some p → p.source = some u →
      c.state.world.value? u = some x → WrittenSinceBind past i u → p.Mirrors x := by
  obtain ⟨q, hfocus⟩ := isSome_reply?_iff.1 hreply
  have hsettled : ∀ t u r b x, c.state.world.body? t = some b →
      c.state.world.relation? t = some (u, r) → c.state.world.value? u = some x →
        Owes past t u b → b.Mirrors x := by
    intro t u r b x hb hr hx howes
    have hidle : c.focus.pending = [] ∧ c.inHand? = none ∧ c.focus.error? = none := by
      rw [inHand?, hfocus]
      exact ⟨rfl, rfl, rfl⟩
    exact (hrun.coherent hclean).mirrors hidle.1 hidle.2.1 (not_failing hidle.2.2) hb hr hx howes
  constructor
  · intro i b x hb hx
    exact hsettled i b.source _ _ x (World.body?_of_binding? hb) (World.relation?_of_binding? hb)
      hx trivial
  · intro i p u x hp hsource hx hwritten
    have hrelation : c.state.world.relation? i = some (u, .bound i) := by
      rw [World.relation?_of_property? hp, hsource]
      rfl
    exact hsettled i u _ _ x (World.body?_of_property? hp) hrelation hx hwritten

/-- A binding and a property that is bound to it, after the source of the binding was set. -/
theorem mirrors_of_reply_chain : ∃ (past : List (Config Bool)) (c : Config Bool),
    Run Op.IsQuiet past c ∧ c.reply?.isSome = true ∧ c.state.world.value? 2 = some false ∧
      (∀ i b x, c.state.world.binding? i = some b → c.state.world.value? b.source = some x →
        b.Mirrors x) ∧
      ∃ p, c.state.world.property? 2 = some p ∧ p.source = some 1 ∧ p.Mirrors false := by
  have hsource : Run Op.IsQuiet _
      (start {} (.act (.property "p" false (fun v => .stop (.ok v)) none))) :=
    .start ⟨fun _ => rfl, fun _ hr => by cases hr⟩
  have hwrap : Run Op.IsQuiet _ (start _ (.wrap "p" "b" fun v => .stop !v)) :=
    (hsource.step rfl).perform rfl fun _ => rfl
  have hbound : Run Op.IsQuiet _
      (start _ (.act (.property "q" true (fun v => .stop (.ok v)) none))) :=
    (hwrap.iterate 2).perform rfl ⟨fun _ => rfl, fun _ hr => by cases hr⟩
  have hbind : Run Op.IsQuiet _ (start _ (.act (.bind "q" "b"))) :=
    (hbound.step rfl).perform rfl trivial
  have hset : Run Op.IsQuiet _ (start _ (.set "p" true)) :=
    (hbind.step rfl).perform rfl trivial
  have hlast := hset.iterate 30
  have hclean := hlast.mirrors_of_reply rfl ?_
  refine ⟨_, _, hlast, rfl, rfl, hclean.1, _, rfl, rfl, hclean.2 2 _ 1 false rfl rfl rfl ?_⟩
  · decide
  · intro d hd e he
    have hnone := (List.all_eq_true (p := fun e : Config Bool => e.setFailure?.isNone)).1
      (by rfl) d hd
    rw [he] at hnone
    cases hnone

end Config

end Observable
