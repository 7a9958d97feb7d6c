import Observable.Config
import Observable.Proofs.Shape

/-!
# The transitions of a configuration

`Config.Transition` says once what a step can do, with the conditions under which it does it; every
step is one of these transitions (`Config.Transition.of_step`). An invariant of runs is shown with
one case for each transition.

Two things stay folded: the failure of an update, which goes on with the property's reporter if it
has one (`State.fail_cases`), and the birth of a binding (`State.wrap`).
-/

namespace Observable

variable {V : Type} [BEq V]

namespace Config

inductive Transition : Config V → Config V → Prop
  -- Operations begin.
  | act (s : State V) (a : Action V) (k : Stack V .reply) :
    Transition ⟨s, .operate (.act a) k⟩
      ⟨⟨(s.world.act k.holds a).world,
          s.log ++ (s.world.act k.holds a).traces.map .trace⟩,
        .reply (s.world.act k.holds a).reply k⟩
  | setUnknown {s : State V} {name : String} {k : Stack V .reply} (v : V)
      (hname : ∀ i, s.world.find? name Handle.property? = some i → s.world.property? i = none) :
    Transition ⟨s, .operate (.set name v) k⟩ ⟨s, .reply .unknownName k⟩
  | setBound {s : State V} {name : String} {i : Id} {p : Property V} {k : Stack V .reply} (v : V)
      (hname : s.world.find? name Handle.property? = some i) (hp : s.world.property? i = some p)
      (hbound : p.source.isSome = true) :
    Transition ⟨s, .operate (.set name v) k⟩ ⟨s, .reply (.failed .boundWrite) k⟩
  | set {s : State V} {name : String} {i : Id} {p : Property V} {k : Stack V .reply} (v : V)
      (hname : s.world.find? name Handle.property? = some i) (hp : s.world.property? i = some p)
      (hfree : p.source = none) :
    Transition ⟨s, .operate (.set name v) k⟩
      ⟨s, .run (p.validate v) (.validating i (.setting i k))⟩
  | notifyUnknown {s : State V} {name observed : String} {k : Stack V .reply} (old new : V)
      (hname : ∀ i, s.world.find? name Handle.set? = some i →
        s.world.find? observed Handle.observable? = none) :
    Transition ⟨s, .operate (.notify name observed old new) k⟩ ⟨s, .reply .unknownName k⟩
  | notify {s : State V} {name observed : String} {i j : Id} {k : Stack V .reply} (old new : V)
      (hname : s.world.find? name Handle.set? = some i)
      (hobserved : s.world.find? observed Handle.observable? = some j) :
    Transition ⟨s, .operate (.notify name observed old new) k⟩
      ⟨s.emit (.trace (.notifying i (s.world.registrations i).length)),
        .round (s.world.registrations i) j old new (.notifying i j k)⟩
  | wrapUnknown {s : State V} {name : String} {k : Stack V .reply} (as : String)
      (convert : V → Script V .converter)
      (hname : ∀ i, s.world.find? name Handle.observable? = some i → s.world.value? i = none) :
    Transition ⟨s, .operate (.wrap name as convert) k⟩ ⟨s, .reply .unknownName k⟩
  | wrap {s : State V} {name : String} {i : Id} {v : V} {k : Stack V .reply} (as : String)
      (convert : V → Script V .converter)
      (hname : s.world.find? name Handle.observable? = some i)
      (hv : s.world.value? i = some v) :
    Transition ⟨s, .operate (.wrap name as convert) k⟩
      ⟨s, .run (convert v) (.wrapping i as convert k)⟩
  -- Callbacks run.
  | resume {ρ : Role} (s : State V) (r : Reply V) (next : Reply V → Script V ρ)
      (k : Stack V (.answer ρ)) :
    Transition ⟨s, .reply r (.script next k)⟩ ⟨s, .run (next r) k⟩
  | emit {ρ : Role} (s : State V) (e : Event V) (rest : Script V ρ) (k : Stack V (.answer ρ)) :
    Transition ⟨s, .run (.emit e rest) k⟩ ⟨s.emit e, .run rest k⟩
  | perform {ρ : Role} (s : State V) (op : Op V) (next : Reply V → Script V ρ)
      (k : Stack V (.answer ρ)) :
    Transition ⟨s, .run (.perform op next) k⟩ ⟨s, .operate op (.script next k)⟩
  -- A property is updated.
  | gone {s : State V} {k : Stack V .update} (i : Id) (v : V)
      (hgone : s.world.value? k.updated = none) :
    Transition ⟨s, .run (@Script.stop V .validator (.ok v)) (.validating i k)⟩
      ⟨s, .updated (.ok v) k⟩
  | unchanged {s : State V} {k : Stack V .update} {old v : V} (i : Id)
      (hold : s.world.value? k.updated = some old) (heq : (old == v) = true) :
    Transition ⟨s, .run (@Script.stop V .validator (.ok v)) (.validating i k)⟩
      ⟨s, .updated (.ok old) k⟩
  | write {s : State V} {k : Stack V .update} {old v : V} (i : Id)
      (hold : s.world.value? k.updated = some old) (hne : (old == v) = false) :
    Transition ⟨s, .run (@Script.stop V .validator (.ok v)) (.validating i k)⟩
      ⟨({ s with world := s.world.store k.updated v } : State V).emit
          (.trace (.notifying k.updated (s.world.registrations k.updated).length)),
        .round (s.world.registrations k.updated) k.updated old v
          (.updating k.updated old k)⟩
  | reject (s : State V) (i : Id) (c : Cause) (k : Stack V .update) :
    Transition ⟨s, .run (@Script.stop V .validator (.error c)) (.validating i k)⟩
      (s.fail (c.during .validation) k)
  | reported (s : State V) (i : Id) (e : Error) (a : Answer V .reporter) (k : Stack V .update) :
    Transition ⟨s, .run (.stop a) (.reporting i e k)⟩ ⟨s, .updated (.error e) k⟩
  | announced (s : State V) (i : Id) (old : V) (k : Stack V .update) :
    Transition ⟨s, .rounded (.ok ()) (.updating i old k)⟩ ⟨s, .updated (.ok old) k⟩
  | announceFailed (s : State V) (i : Id) (old : V) (e : Error) (k : Stack V .update) :
    Transition ⟨s, .rounded (.error e) (.updating i old k)⟩ (s.fail e k)
  | setDone (s : State V) (r : Except Error V) (i : Id) (k : Stack V .reply) :
    Transition ⟨s, .updated r (.setting i k)⟩
      ⟨s.release k i,
        .reply (match r with | .ok old => .done (.value old) | .error e => .failed e) k⟩
  | followed (s : State V) (r : Except Error V) (i : Id) (k : Stack V .call) :
    Transition ⟨s, .updated r (.following i k)⟩
      ⟨s.release k i, .called (match r with | .ok _ => .ok () | .error e => .error e) k⟩
  -- A binding is made, or converts anew.
  | wrapped (s : State V) (i : Id) (name : String) (convert : V → Script V .converter)
      (v : Answer V .converter) (k : Stack V .reply) :
    Transition ⟨s, .run (.stop v) (.wrapping i name convert k)⟩ (s.wrap i name convert v k)
  | convertedGone {s : State V} {i : Id} (v : V) (k : Stack V .call)
      (hgone : s.world.value? i = none) :
    Transition ⟨s, .run (@Script.stop V .converter v) (.converting i k)⟩
      ⟨s.release k i, .called (.ok ()) k⟩
  | converted {s : State V} {i : Id} {old : V} (v : V) (k : Stack V .call)
      (hold : s.world.value? i = some old) :
    Transition ⟨s, .run (@Script.stop V .converter v) (.converting i k)⟩
      ⟨({ s with world := s.world.store i v } : State V).emit
          (.trace (.notifying i (s.world.registrations i).length)),
        .round (s.world.registrations i) i old v (.recomputing i k)⟩
  | recomputed (s : State V) (r : Except Error Unit) (i : Id) (k : Stack V .call) :
    Transition ⟨s, .rounded r (.recomputing i k)⟩ ⟨s.release k i, .called r k⟩
  -- A round calls its registrations.
  | roundDone (s : State V) (observed : Id) (old new : V) (k : Stack V .round) :
    Transition ⟨s, .round [] observed old new k⟩ ⟨s, .rounded (.ok ()) k⟩
  | callGone {s : State V} {l : ListenerId} (rest : List Registration) (observed : Id)
      (old new : V) (k : Stack V .round) (hgone : s.world.listeners.get? l = none) :
    Transition ⟨s, .round (.listener l :: rest) observed old new k⟩
      ⟨s, .called (.ok ()) (.round rest observed old new k)⟩
  | send {s : State V} {l : ListenerId} {sent : List (Change V)} {taken : Nat}
      (rest : List Registration) (observed : Id) (old new : V) (k : Stack V .round)
      (hl : s.world.listeners.get? l = some (.channel sent taken)) :
    Transition ⟨s, .round (.listener l :: rest) observed old new k⟩
      ⟨{ s with world := s.world.alterListener l (Listener.send ⟨old, new⟩) },
        .called (.ok ()) (.round rest observed old new k)⟩
  | listen {s : State V} {l : ListenerId} {calls : Nat} {body : Call V → Script V .listener}
      (rest : List Registration) (observed : Id) (old new : V) (k : Stack V .round)
      (hl : s.world.listeners.get? l = some (.callback calls body)) :
    Transition ⟨s, .round (.listener l :: rest) observed old new k⟩
      ⟨{ s with world := s.world.alterListener l Listener.counted },
        .run (body ⟨calls, observed, (s.world.value? observed).getD new, old, new⟩)
          (.listening (.round rest observed old new k))⟩
  | boundGone {s : State V} {i : Id} (rest : List Registration) (observed : Id) (old new : V)
      (k : Stack V .round) (hgone : s.world.property? i = none) :
    Transition ⟨s, .round (.bound i :: rest) observed old new k⟩
      ⟨s, .called (.ok ()) (.round rest observed old new k)⟩
  | deliver {s : State V} {i : Id} {p : Property V} (rest : List Registration) (observed : Id)
      (old new : V) (k : Stack V .round) (hp : s.world.property? i = some p) :
    Transition ⟨s, .round (.bound i :: rest) observed old new k⟩
      ⟨s, .run (p.validate new)
        (.validating i (.following i (.round rest observed old new k)))⟩
  | derivedGone {s : State V} {i : Id} (rest : List Registration) (observed : Id) (old new : V)
      (k : Stack V .round) (hgone : s.world.binding? i = none) :
    Transition ⟨s, .round (.derived i :: rest) observed old new k⟩
      ⟨s, .called (.ok ()) (.round rest observed old new k)⟩
  | convert {s : State V} {i : Id} {b : Binding V} (rest : List Registration) (observed : Id)
      (old new : V) (k : Stack V .round) (hb : s.world.binding? i = some b) :
    Transition ⟨s, .round (.derived i :: rest) observed old new k⟩
      ⟨s, .run (b.convert new) (.converting i (.round rest observed old new k))⟩
  -- Calls and rounds end.
  | listened (s : State V) (k : Stack V .call) :
    Transition ⟨s, .run (@Script.stop V .listener (.ok ())) (.listening k)⟩ ⟨s, .called (.ok ()) k⟩
  | listenFailed (s : State V) (c : Cause) (k : Stack V .call) :
    Transition ⟨s, .run (@Script.stop V .listener (.error c)) (.listening k)⟩
      ⟨s, .called (.error (c.during .listener)) k⟩
  | called (s : State V) (rest : List Registration) (observed : Id) (old new : V)
      (k : Stack V .round) :
    Transition ⟨s, .called (.ok ()) (.round rest observed old new k)⟩
      ⟨s, .round rest observed old new k⟩
  | callFailed (s : State V) (rest : List Registration) (observed : Id) (old new : V) (e : Error)
      (k : Stack V .round) :
    Transition ⟨s, .called (.error e) (.round rest observed old new k)⟩
      ⟨s, .rounded (.error e) k⟩
  | notified (s : State V) (r : Except Error Unit) (i j : Id) (k : Stack V .reply) :
    Transition ⟨s, .rounded r (.notifying i j k)⟩
      ⟨(s.release k i).release k j,
        .reply (match r with | .ok _ => .done .unit | .error e => .failed e) k⟩

end Config

namespace State

omit [BEq V] in
/-- A failed update is told to the reporter, or ends at once. -/
theorem fail_cases {s : State V} {e : Error} {k : Stack V .update} {P : Config V → Prop}
    (hended : P ⟨s, .updated (.error e) k⟩)
    (hreported : ∀ p report, s.world.property? k.updated = some p → p.report = some report →
      P ⟨s, .run (report e) (.reporting k.updated e k)⟩) : P (s.fail e k) := by
  unfold fail
  cases hp : s.world.property? k.updated with
  | none => exact hended
  | some p =>
    cases hreport : p.report with
    | none => simpa [hreport] using hended
    | some report => simpa [hreport] using hreported p report hp hreport

theorem transition_operate (s : State V) (op : Op V) (k : Stack V .reply) :
    Config.Transition ⟨s, .operate op k⟩ (s.operate k op) := by
  cases op with
  | act a => exact .act s a k
  | set name v =>
    unfold operate
    simp only
    split
    · next hname =>
      apply Config.Transition.setUnknown
      simp [hname]
    · next i hname =>
      split
      · next hp =>
        apply Config.Transition.setUnknown
        intro j hj
        rw [hname] at hj
        cases hj
        exact hp
      · next p hp =>
        split
        · next hbound => exact .setBound v hname hp hbound
        · next hfree => exact .set v hname hp (by simpa using hfree)
  | notify name observed old new =>
    unfold operate
    simp only
    split
    · next hname =>
      apply Config.Transition.notifyUnknown
      simp [hname]
    · next i hname =>
      split
      · next hobserved =>
        apply Config.Transition.notifyUnknown
        intro _ _
        exact hobserved
      · next j hobserved => exact .notify old new hname hobserved
  | wrap name as convert =>
    unfold operate
    simp only
    split
    · next hname =>
      apply Config.Transition.wrapUnknown
      simp [hname]
    · next i hname =>
      split
      · next hv =>
        apply Config.Transition.wrapUnknown
        intro j hj
        rw [hname] at hj
        cases hj
        exact hv
      · next v hv => exact .wrap as convert hname hv

omit [BEq V] in
/-- A stored value is announced to the listeners that were there before. -/
theorem announce_store (s : State V) (i : Id) (old v : V) (k : Stack V .round)
    (howner : k.owner = i) :
    ({ s with world := s.world.store i v } : State V).announce i old v k =
      ⟨({ s with world := s.world.store i v } : State V).emit
          (.trace (.notifying i (s.world.registrations i).length)),
        .round (s.world.registrations i) i old v k⟩ := by
  unfold announce
  rw [howner, World.registrations_store]

theorem transition_answer (s : State V) {ρ : Role} (k : Stack V (.answer ρ)) (a : Answer V ρ) :
    Config.Transition ⟨s, .run (.stop a) k⟩ (s.answer k a) := by
  cases k with
  | validating i k =>
    cases a with
    | ok v =>
      show Config.Transition _ (s.commit v k)
      unfold commit
      split
      · next hgone => exact .gone i v hgone
      · next old hold =>
        split
        · next heq => exact .unchanged i hold heq
        · next hne =>
          rw [announce_store s k.updated old v (.updating k.updated old k) rfl]
          exact .write i hold (Bool.eq_false_iff.2 hne)
    | error c => exact .reject s i c k
  | reporting i e k => exact .reported s i e a k
  | converting i k =>
    show Config.Transition _ (s.recompute i a k)
    unfold recompute
    split
    · next hgone => exact @Config.Transition.convertedGone V _ s i a k hgone
    · next old hold =>
      rw [announce_store s i old a (.recomputing i k) rfl]
      exact @Config.Transition.converted V _ s i old a k hold
  | wrapping i name convert k => exact .wrapped s i name convert a k
  | listening k =>
    cases a with
    | ok u => exact .listened s k
    | error c => exact .listenFailed s c k

theorem transition_call (s : State V) (r : Registration) (rest : List Registration)
    (observed : Id) (old new : V) (k : Stack V .round) :
    Config.Transition ⟨s, .round (r :: rest) observed old new k⟩
      (s.call r observed old new (.round rest observed old new k)) := by
  cases r with
  | listener l =>
    unfold call
    simp only
    split
    · next hgone => exact .callGone rest observed old new k hgone
    · next hl => exact .send rest observed old new k hl
    · next hl => exact .listen rest observed old new k hl
  | bound i =>
    unfold call
    simp only
    split
    · next hgone => exact .boundGone rest observed old new k hgone
    · next hp => exact .deliver rest observed old new k hp
  | derived i =>
    unfold call
    simp only
    split
    · next hgone => exact .derivedGone rest observed old new k hgone
    · next hb => exact .convert rest observed old new k hb

end State

namespace Config

/-- Every step is one of the transitions. -/
theorem Transition.of_step {c d : Config V} (hstep : c.step = some d) : Transition c d := by
  obtain ⟨s, f⟩ := c
  cases f with
  | operate op k =>
    cases hstep
    exact s.transition_operate op k
  | reply r k =>
    cases k with
    | idle => cases hstep
    | script next k =>
      cases hstep
      exact .resume s r next k
  | run script k =>
    cases hstep
    cases script with
    | stop a => exact s.transition_answer k a
    | emit e rest => exact .emit s e rest k
    | perform op next => exact .perform s op next k
  | round rest observed old new k =>
    cases rest with
    | nil =>
      cases hstep
      exact .roundDone s observed old new k
    | cons r rest =>
      cases hstep
      exact s.transition_call r rest observed old new k
  | called r k =>
    cases hstep
    cases k with
    | round rest observed old new k =>
      cases r with
      | ok u => exact .called s rest observed old new k
      | error e => exact .callFailed s rest observed old new e k
  | rounded r k =>
    cases hstep
    cases k with
    | notifying i j k => exact .notified s r i j k
    | updating i old k =>
      cases r with
      | ok u => exact .announced s i old k
      | error e => exact .announceFailed s i old e k
    | recomputing i k => exact .recomputed s r i k
  | updated r k =>
    cases hstep
    cases k with
    | setting i k => exact .setDone s r i k
    | following i k => exact .followed s r i k

end Config

end Observable
