import Mathlib.Data.List.Nodup
import Observable.Proofs.History

/-!
# Registrations throughout a run

Whatever callbacks do and however deeply their operations are nested, every configuration of a run
has the registrations that the bodies of its live objects call for, and no others
(`Config.Run.registered_of_run`). Apart from them a list has the listeners that users added and did
not remove, so its length can be computed from the past of the run and the live objects.

The first half is soundness of the world read again. The second half compares two lists without
repetitions, the registrations of objects in the list and the objects that have it as their source,
and follows the number of listeners through the run.
-/

namespace Observable

variable {V : Type}

namespace World

/-- How many properties are bound to an object. -/
def followers (w : World V) (i : Id) : Nat :=
  (List.range w.objects.size).countP fun t => (w.property? t).any (·.source == some i)

/-- How many bindings convert the values of an object. -/
def derivations (w : World V) (i : Id) : Nat :=
  (List.range w.objects.size).countP fun t => (w.binding? t).any (·.source == i)

/-- What the object of a number is registered as with another one, if it is. -/
def registrationOf? (w : World V) (i t : Id) : Option Registration :=
  (w.relation? t).bind fun x => if x.1 = i then some x.2 else none

/-- The registrations that the live objects call for in one list. -/
def dependents (w : World V) (i : Id) : List Registration :=
  (List.range w.objects.size).filterMap (w.registrationOf? i)

theorem registrationOf?_eq_some_iff {w : World V} {i t : Id} {r : Registration} :
    w.registrationOf? i t = some r ↔ w.relation? t = some (i, r) := by
  unfold registrationOf?
  cases w.relation? t with
  | none => simp
  | some x =>
    obtain ⟨j, s⟩ := x
    by_cases hj : j = i
    · simp [hj]
    · simp [hj]

theorem mem_dependents_iff {w : World V} {i : Id} {r : Registration} :
    r ∈ w.dependents i ↔ ∃ t, w.relation? t = some (i, r) := by
  unfold dependents
  rw [List.mem_filterMap]
  constructor
  · rintro ⟨t, _, ht⟩
    exact ⟨t, registrationOf?_eq_some_iff.1 ht⟩
  · rintro ⟨t, ht⟩
    have hlt := lt_size_of_alive (alive_of_relation? ht)
    exact ⟨t, List.mem_range.2 hlt, registrationOf?_eq_some_iff.2 ht⟩

/-- An object is registered as itself, so no two objects call for the same registration. -/
theorem nodup_dependents (w : World V) (i : Id) : (w.dependents i).Nodup := by
  apply List.Nodup.filterMap
  · intro t t' r ht ht'
    have htarget := target?_of_relation? (registrationOf?_eq_some_iff.1 ht)
    have htarget' := target?_of_relation? (registrationOf?_eq_some_iff.1 ht')
    rw [htarget] at htarget'
    exact Option.some.inj htarget'
  · exact List.nodup_range

/-- An object that is registered is a property or a binding, and never both. -/
theorem length_dependents (w : World V) (i : Id) :
    (w.dependents i).length = w.followers i + w.derivations i := by
  unfold dependents followers derivations
  rw [List.length_filterMap_eq_countP]
  induction List.range w.objects.size with
  | nil => rfl
  | cons t ts ih =>
    -- One object adds to the list as much as it adds to the two counts together.
    rw [List.countP_cons, List.countP_cons, List.countP_cons, ih]
    have hsplit : (if (w.registrationOf? i t).isSome = true then 1 else 0)
        = (if (w.property? t).any (·.source == some i) = true then 1 else 0)
          + (if (w.binding? t).any (·.source == i) = true then 1 else 0) := by
      unfold registrationOf? relation? property? binding?
      cases w.object? t with
      | none => rfl
      | some o =>
        cases hbody : o.body with
        | property p =>
          cases hsource : p.source with
          | none => simp [hbody, hsource, Body.relation?, Body.property?, Body.binding?]
          | some j =>
            by_cases hj : j = i
            · simp [hbody, hsource, hj, Body.relation?, Body.property?, Body.binding?]
            · simp [hbody, hsource, hj, Body.relation?, Body.property?, Body.binding?]
        | binding b =>
          by_cases hj : b.source = i
          · simp [hbody, hj, Body.relation?, Body.property?, Body.binding?]
          · simp [hbody, hj, Body.relation?, Body.property?, Body.binding?]
        | bare => simp [hbody, Body.relation?, Body.property?, Body.binding?]
    omega

/-- In a live list the registrations of objects are those that the live objects call for. -/
theorem Linked.perm_dependents {w : World V} (hw : w.Linked) {i : Id}
    (halive : w.alive i = true) :
    ((w.registrations i).filter (·.target?.isSome)).Perm (w.dependents i) := by
  have hnodup : ((w.registrations i).filter (·.target?.isSome)).Nodup := by
    rw [List.nodup_iff_count_le_one]
    intro r
    cases ht : r.target? with
    | none =>
      have hnot : r ∉ (w.registrations i).filter (·.target?.isSome) := by
        simp [List.mem_filter, ht]
      rw [List.count_eq_zero_of_not_mem hnot]
      omega
    | some t =>
      rw [List.count_filter (by simp [ht])]
      exact hw.count_le_one ht
  -- Neither list has repetitions, so it is enough to compare their members.
  rw [List.perm_ext_iff_of_nodup hnodup (w.nodup_dependents i)]
  intro r
  rw [List.mem_filter, mem_dependents_iff]
  constructor
  · rintro ⟨hr, hsome⟩
    obtain ⟨t, ht⟩ := Option.isSome_iff_exists.1 hsome
    exact ⟨t, hw.relation?_of_mem hr ht⟩
  · rintro ⟨t, ht⟩
    refine ⟨hw.mem_of_relation? halive ht, ?_⟩
    rw [target?_of_relation? ht]
    rfl

/-- A live list has its listeners, the properties that follow and the bindings that convert. -/
theorem Linked.length_registrations {w : World V} (hw : w.Linked) {i : Id}
    (halive : w.alive i = true) :
    (w.registrations i).length =
      (w.registrations i).countP (·.target?.isNone) + w.followers i + w.derivations i := by
  have hsplit := List.length_eq_countP_add_countP (·.target?.isSome) (l := w.registrations i)
  have hobjects : (w.registrations i).countP (·.target?.isSome)
      = w.followers i + w.derivations i := by
    rw [← w.length_dependents i, ← (hw.perm_dependents halive).length_eq,
      List.countP_eq_length_filter]
  have hlisteners : (w.registrations i).countP (fun r => decide ¬r.target?.isSome = true)
      = (w.registrations i).countP (·.target?.isNone) := by
    congr 1
    funext r
    cases r.target? <;> rfl
  omega

end World

namespace Config

/-! ## Listeners added and removed -/

/-- How often users added a listener to an object. -/
def additions (past : List (Config V)) (i : Id) : Nat :=
  past.countP fun c => c.added?.any (·.1 == i)

/-- How often users successfully removed a listener from an object. -/
def removals (past : List (Config V)) (i : Id) : Nat :=
  past.countP fun c => c.removed?.any (·.1 == i)

/-- The listeners of a live object are those that were added and not removed, and a number that is
not given yet has no history. -/
structure Balanced (past : List (Config V)) (c : Config V) : Prop where
  live : ∀ i, c.state.world.alive i = true →
    (c.state.world.registrations i).countP (·.target?.isNone) + removals past i = additions past i
  fresh : ∀ i, c.state.world.objects.size ≤ i → additions past i = 0 ∧ removals past i = 0

theorem countP_cons_of_eq {f : Config V → Option (Id × ListenerId)} {c : Config V} {i : Id}
    {l : ListenerId} (hc : f c = some (i, l)) (past : List (Config V)) :
    (c :: past).countP (fun c => (f c).any (·.1 == i)) =
      past.countP (fun c => (f c).any (·.1 == i)) + 1 := by
  apply List.countP_cons_of_pos
  simp [hc]

theorem countP_cons_of_ne {f : Config V → Option (Id × ListenerId)} {c : Config V} {i : Id}
    (hc : ∀ l, f c ≠ some (i, l)) (past : List (Config V)) :
    (c :: past).countP (fun c => (f c).any (·.1 == i)) =
      past.countP (fun c => (f c).any (·.1 == i)) := by
  apply List.countP_cons_of_neg
  cases hf : f c with
  | none => simp
  | some x =>
    obtain ⟨j, l⟩ := x
    rw [Option.any_some, beq_iff_eq]
    rintro rfl
    exact hc l hf

theorem additions_of_added? {c : Config V} {i : Id} {l : ListenerId}
    (hadd : c.added? = some (i, l)) (past : List (Config V)) :
    additions (c :: past) i = additions past i + 1 :=
  countP_cons_of_eq hadd past

theorem additions_of_not_added? {c : Config V} {i : Id} (hadd : ∀ l, c.added? ≠ some (i, l))
    (past : List (Config V)) : additions (c :: past) i = additions past i :=
  countP_cons_of_ne hadd past

theorem removals_of_removed? {c : Config V} {i : Id} {l : ListenerId}
    (hremove : c.removed? = some (i, l)) (past : List (Config V)) :
    removals (c :: past) i = removals past i + 1 :=
  countP_cons_of_eq hremove past

theorem removals_of_not_removed? {c : Config V} {i : Id}
    (hremove : ∀ l, c.removed? ≠ some (i, l)) (past : List (Config V)) :
    removals (c :: past) i = removals past i :=
  countP_cons_of_ne hremove past

/-- No step adds and removes at once. -/
theorem removed?_of_added? {c : Config V} {i : Id} {l : ListenerId}
    (hadd : c.added? = some (i, l)) : c.removed? = none := by
  unfold added? at hadd
  unfold removed?
  split at hadd
  · next a k hfocus =>
    show c.state.world.removal? a = none
    cases a with
    | add => rfl
    | _ => cases hadd
  · cases hadd

/-- What is removed successfully was in the list. -/
theorem mem_of_removed? {c : Config V} {i : Id} {l : ListenerId}
    (hremove : c.removed? = some (i, l)) (halive : c.state.world.alive i = true) :
    Registration.listener l ∈ c.state.world.registrations i := by
  unfold removed? at hremove
  split at hremove
  · exact World.mem_of_removal? hremove halive
  · cases hremove

variable [BEq V]

theorem Balanced.step {past : List (Config V)} {c d : Config V} (hc : c.Sound)
    (hbalanced : c.Balanced past) (hstep : c.step = some d) : d.Balanced (c :: past) := by
  have heffect := Effect.of_transition (.of_step hstep)
  constructor
  · intro i halive
    rcases registrations_of_step hc hstep halive with ⟨l, hadd, hlist⟩ | ⟨l, hremove, hlist⟩ |
      ⟨hadd, hremove, hkept⟩
    · have hold := hbalanced.live i (hc.alive_of_added? hadd)
      have hnotremoved : ∀ m, c.removed? ≠ some (i, m) := by
        intro m hm
        rw [removed?_of_added? hadd] at hm
        cases hm
      have hnew : (d.state.world.registrations i).countP (·.target?.isNone)
          = (c.state.world.registrations i).countP (·.target?.isNone) + 1 := by
        rw [hlist, List.countP_append]
        rfl
      rw [additions_of_added? hadd, removals_of_not_removed? hnotremoved, hnew]
      omega
    · have halive' : c.state.world.alive i = true :=
        heffect.alive (hc.lt_size_of_removed? hremove) halive
      have hold := hbalanced.live i halive'
      have hnotadded : ∀ m, c.added? ≠ some (i, m) := by
        intro m hm
        rw [removed?_of_added? hm] at hremove
        cases hremove
      have hcount := (List.perm_cons_erase (mem_of_removed? hremove halive')).countP_eq
        (·.target?.isNone)
      have hnew : (c.state.world.registrations i).countP (·.target?.isNone)
          = (d.state.world.registrations i).countP (·.target?.isNone) + 1 := by
        rw [hlist, hcount, List.countP_cons]
        rfl
      rw [additions_of_not_added? hnotadded, removals_of_removed? hremove]
      omega
    · have hsame : (d.state.world.registrations i).countP (·.target?.isNone)
          = (c.state.world.registrations i).countP (·.target?.isNone) := by
        apply hkept.countP_listener
        intro r t ht
        rw [ht]
        rfl
      rw [additions_of_not_added? hadd, removals_of_not_removed? hremove, hsame]
      by_cases hlt : i < c.state.world.objects.size
      · exact hbalanced.live i (heffect.alive hlt halive)
      · -- An object that has just been made begins with an empty list.
        have hsize : c.state.world.objects.size ≤ i := Nat.le_of_not_lt hlt
        have hempty := World.registrations_of_dead (World.object?_of_size_le hsize)
        obtain ⟨hadditions, hremovals⟩ := hbalanced.fresh i hsize
        rw [hempty, hadditions, hremovals]
        rfl
  · intro i hsize
    have hsize' : c.state.world.objects.size ≤ i :=
      Nat.le_trans heffect.size_objects_le hsize
    have hadd : ∀ l, c.added? ≠ some (i, l) := by
      intro l hl
      have hlt := World.lt_size_of_alive (hc.alive_of_added? hl)
      exact Nat.not_lt_of_le hsize' hlt
    have hremove : ∀ l, c.removed? ≠ some (i, l) :=
      fun l hl => Nat.not_lt_of_le hsize' (hc.lt_size_of_removed? hl)
    rw [additions_of_not_added? hadd, removals_of_not_removed? hremove]
    exact hbalanced.fresh i hsize'

theorem Run.balanced {allowed : Op V → Prop} {past : List (Config V)} {c : Config V}
    (hrun : Run allowed past c) : c.Balanced past := by
  induction hrun with
  | start hop =>
    constructor
    · intro i halive
      cases halive
    · intro i _
      exact ⟨rfl, rfl⟩
  | step hrun hstep ih => exact ih.step hrun.sound hstep
  | @perform past c op hrun hreply hop ih =>
    obtain ⟨r, hfocus⟩ := isSome_reply?_iff.1 hreply
    have hadd : ∀ i l, c.added? ≠ some (i, l) := by
      intro i l hl
      rw [added?, hfocus] at hl
      cases hl
    have hremove : ∀ i l, c.removed? ≠ some (i, l) := by
      intro i l hl
      rw [removed?, hfocus] at hl
      cases hl
    constructor
    · intro i halive
      rw [additions_of_not_added? (hadd i), removals_of_not_removed? (hremove i)]
      exact ih.live i halive
    · intro i hsize
      rw [additions_of_not_added? (hadd i), removals_of_not_removed? (hremove i)]
      exact ih.fresh i hsize

/-! ## The registrations of a configuration -/

/-- The lists of a configuration have what they should have, given its past. -/
structure Registered (past : List (Config V)) (c : Config V) : Prop where
  /-- A live property is registered once, with the live object that it is bound to. -/
  bound : ∀ (i : Id) (p : Property V), c.state.world.property? i = some p → ∀ j,
    (c.state.world.registrations j).count (.bound i) =
      if p.source = some j ∧ c.state.world.alive j = true then 1 else 0
  /-- A live binding is registered once, with its source as long as that lives. -/
  derived : ∀ (i : Id) (b : Binding V), c.state.world.binding? i = some b → ∀ j,
    (c.state.world.registrations j).count (.derived i) =
      if b.source = j ∧ c.state.world.alive j = true then 1 else 0
  /-- What is registered lives. -/
  target : ∀ (j t : Id) (r : Registration), r ∈ c.state.world.registrations j →
    r.target? = some t → c.state.world.alive t = true
  /-- A live list is as long as its history and the live objects say. -/
  length : ∀ i, c.state.world.alive i = true →
    (c.state.world.registrations i).length + removals past i =
      additions past i + c.state.world.followers i + c.state.world.derivations i

/-- In every moment of every run, the registrations are those that the live objects and the past of
the run call for. -/
theorem Run.registered_of_run {allowed : Op V → Prop} {past : List (Config V)} {c : Config V}
    (hrun : Run allowed past c) : c.Registered past where
  bound := by
    intro i p hp j
    rw [hrun.sound.world.linked.count j (.bound i) i rfl, World.relation?_of_property? hp]
    cases p.source with
    | none => simp
    | some k =>
      by_cases hk : k = j
      · simp [hk]
      · simp [hk]
  derived := by
    intro i b hb j
    rw [hrun.sound.world.linked.count j (.derived i) i rfl, World.relation?_of_binding? hb]
    by_cases hj : b.source = j
    · simp [hj]
    · simp [hj]
  target := by
    intro j t r hr ht
    exact World.alive_of_relation? (hrun.sound.world.linked.relation?_of_mem hr ht)
  length := by
    intro i halive
    have hlength := hrun.sound.world.linked.length_registrations halive
    have hlisteners := hrun.balanced.live i halive
    omega

/-- A property that is bound to another one stands in its list, before a later listener. -/
theorem registered_follower : ∃ (past : List (Config Bool)) (c : Config Bool),
    Run (fun _ => True) past c ∧ c.Registered past ∧
      c.state.world.registrations 1 = [.bound 0, .listener 0] := by
  have hfirst : Run (fun _ => True) _
      (start {} (.act (.property "p" false (fun v => .stop (.ok v)) none))) := .start trivial
  have hsecond : Run (fun _ => True) _
      (start _ (.act (.property "q" true (fun v => .stop (.ok v)) none))) :=
    (hfirst.step rfl).perform rfl trivial
  have hbind : Run (fun _ => True) _ (start _ (.act (.bind "p" "q"))) :=
    (hsecond.step rfl).perform rfl trivial
  have hchannel : Run (fun _ => True) _ (start _ (.act (.channel "l" "r"))) :=
    (hbind.step rfl).perform rfl trivial
  have hadd : Run (fun _ => True) _ (start _ (.act (.add "q" "l"))) :=
    (hchannel.step rfl).perform rfl trivial
  have hlast := hadd.step rfl
  exact ⟨_, _, hlast, hlast.registered_of_run, rfl⟩

end Config

end Observable
