import Observable.Proofs.Edit

/-!
# Registrations and relations agree

A bound property and a binding are each registered with their source, and an object's list says
nothing else about other objects. `World.Linked` puts this as a count: the registration of an object
occurs once in the list of its live source, and nowhere else. Every edit of the world keeps it, and
so does the end of a life.
-/

namespace Observable

variable {V : Type}

namespace World

structure Linked (w : World V) : Prop where
  /-- How often the registration of an object occurs in a list. -/
  count : ∀ (j : Id) (r : Registration) (t : Id), r.target? = some t →
    (w.registrations j).count r =
      if w.alive j = true ∧ w.relation? t = some (j, r) then 1 else 0
  /-- A source is an observable that was there before. -/
  source : ∀ (t j : Id) (r : Registration), w.relation? t = some (j, r) →
    j < w.objects.size ∧ w.shape? j ≠ some .bare

/-! ## Reading a linked world -/

/-- What is registered is a live object, and registered where it says. -/
theorem Linked.relation?_of_mem {w : World V} (hw : w.Linked) {j t : Id} {r : Registration}
    (hr : r ∈ w.registrations j) (ht : r.target? = some t) : w.relation? t = some (j, r) := by
  have hpos := List.count_pos_iff.2 hr
  rw [hw.count j r t ht] at hpos
  split at hpos
  · next h => exact h.2
  · omega

theorem Linked.mem_of_relation? {w : World V} (hw : w.Linked) {j t : Id} {r : Registration}
    (halive : w.alive j = true) (hrelation : w.relation? t = some (j, r)) :
    r ∈ w.registrations j := by
  apply List.count_pos_iff.1
  rw [hw.count j r t (target?_of_relation? hrelation), if_pos ⟨halive, hrelation⟩]
  omega

theorem Linked.count_le_one {w : World V} (hw : w.Linked) {j t : Id} {r : Registration}
    (ht : r.target? = some t) : (w.registrations j).count r ≤ 1 := by
  rw [hw.count j r t ht]
  split <;> omega

/-- A free object is registered nowhere. -/
theorem Linked.count_eq_zero_of_free {w : World V} (hw : w.Linked) {j t : Id} {r : Registration}
    (ht : r.target? = some t) (hfree : w.relation? t = none) :
    (w.registrations j).count r = 0 := by
  rw [hw.count j r t ht, hfree, if_neg (by simp)]

/-! ## Writes that leave relations alone -/

theorem Linked.congr {w w' : World V} (hw : w.Linked)
    (hregistrations : ∀ (j t : Id) (r : Registration), r.target? = some t →
      (w'.registrations j).count r = (w.registrations j).count r)
    (hshape : ∀ j, w'.shape? j = w.shape? j)
    (hrelation : ∀ t, w'.relation? t = w.relation? t)
    (hsize : w'.objects.size = w.objects.size) : w'.Linked where
  count := by
    intro j r t ht
    rw [hregistrations j t r ht, hw.count j r t ht, alive_congr (hshape j), hrelation]
  source := by
    intro t j r hr
    rw [hrelation] at hr
    rw [hsize, hshape]
    exact hw.source t j r hr

theorem linked_empty : ({} : World V).Linked where
  count := by
    intro j r t ht
    rfl
  source := by
    intro t j r hr
    cases hr

theorem Linked.store {w : World V} (hw : w.Linked) (i : Id) (v : V) : (w.store i v).Linked :=
  hw.congr (fun j _ r _ => by rw [registrations_store]) (fun j => shape?_store w i j v)
    (fun t => relation?_store w i t v) (size_objects_alter ..)

theorem count_registrations_register {w : World V} {i j : Id} {r s : Registration} (hne : s ≠ r) :
    ((w.register i s).registrations j).count r = (w.registrations j).count r := by
  unfold registrations register
  rw [object?_alter]
  by_cases h : i = j
  · rw [if_pos h]
    cases w.object? j with
    | none => rfl
    | some o => simp [List.count_append, hne]
  · rw [if_neg h]

theorem count_registrations_unregister {w : World V} {i j : Id} {r s : Registration}
    (hne : s ≠ r) :
    ((w.unregister i s).registrations j).count r = (w.registrations j).count r := by
  rw [registrations_unregister]
  split
  · exact List.count_erase_of_ne (Ne.symm hne)
  · rfl

/-- A user's listener is no registration of an object. -/
theorem listener_ne {l : ListenerId} {r : Registration} {t : Id} (ht : r.target? = some t) :
    Registration.listener l ≠ r := by
  rintro rfl
  cases ht

theorem Linked.register_listener {w : World V} (hw : w.Linked) (i : Id) (l : ListenerId) :
    (w.register i (.listener l)).Linked :=
  hw.congr (fun _ _ _ ht => count_registrations_register (listener_ne ht))
    (fun j => shape?_register w i j _) (fun t => relation?_register w i t _)
    (size_objects_alter ..)

theorem Linked.unregister_listener {w : World V} (hw : w.Linked) (i : Id) (l : ListenerId) :
    (w.unregister i (.listener l)).Linked :=
  hw.congr (fun _ _ _ ht => count_registrations_unregister (listener_ne ht))
    (fun j => shape?_unregister w i j _) (fun t => relation?_unregister w i t _)
    (size_objects_alter ..)

/-! ## Relations that begin -/

/-- A free object gets a source, and its registration goes to the end of that one's list. -/
theorem Linked.link {w w' : World V} (hw : w.Linked) {source t : Id} {r : Registration}
    (ht : r.target? = some t) (hfree : w.relation? t = none)
    (halive : w.alive source = true) (hbare : w.shape? source ≠ some .bare)
    (hregistrations : ∀ j, w'.registrations j =
      if source = j then w.registrations j ++ [r] else w.registrations j)
    (hrelation : ∀ u, w'.relation? u = if t = u then some (source, r) else w.relation? u)
    (hshape : ∀ j, j < w.objects.size → w'.shape? j = w.shape? j)
    (hsize : w.objects.size ≤ w'.objects.size) : w'.Linked := by
  have hlt := lt_size_of_alive halive
  constructor
  · intro j s u hs
    rw [hregistrations, hrelation]
    by_cases htu : t = u
    · -- It was registered nowhere, so the new entry is its only one.
      subst htu
      have hzero := hw.count_eq_zero_of_free (j := j) hs hfree
      rw [if_pos rfl]
      by_cases hj : source = j
      · subst hj
        have halive' : w'.alive source = true := by
          rw [alive_congr (hshape source hlt), halive]
        rw [if_pos rfl, List.count_append, hzero, halive']
        by_cases hrs : r = s <;> simp [hrs]
      · rw [if_neg hj, hzero]
        simp [hj]
    · -- The new entry does not count for another object.
      have hne : r ≠ s := by
        rintro rfl
        rw [ht] at hs
        exact htu (Option.some.inj hs)
      have hcount : (if source = j then w.registrations j ++ [r] else w.registrations j).count s
          = (w.registrations j).count s := by
        split
        · simp [List.count_append, hne]
        · rfl
      rw [if_neg htu, hcount, hw.count j s u hs]
      by_cases hu : w.relation? u = some (j, s)
      · rw [alive_congr (hshape j (hw.source u j s hu).1)]
      · rw [if_neg (fun h => hu h.2), if_neg (fun h => hu h.2)]
  · intro u j s hs
    rw [hrelation] at hs
    split at hs
    · cases hs
      rw [hshape source hlt]
      exact ⟨Nat.lt_of_lt_of_le hlt hsize, hbare⟩
    · obtain ⟨hlt', hbare'⟩ := hw.source u j s hs
      rw [hshape j hlt']
      exact ⟨Nat.lt_of_lt_of_le hlt' hsize, hbare'⟩

theorem Linked.bind {w : World V} (hw : w.Linked) {i source : Id} {p : Property V}
    (hp : w.property? i = some p) (hfree : p.source = none)
    (halive : w.alive source = true) (hbare : w.shape? source ≠ some .bare) :
    ((w.register source (.bound i)).follow i (some source)).Linked := by
  obtain ⟨q, hq⟩ : ∃ q, (w.register source (.bound i)).property? i = some q := by
    rw [← shape?_eq_property_iff, shape?_register, shape?_eq_property_iff]
    exact ⟨p, hp⟩
  apply hw.link (r := .bound i) rfl _ halive hbare
  · intro j
    rw [registrations_follow, registrations_register _ _ _ _ halive]
  · intro u
    rw [relation?_follow hq, relation?_register]
    rfl
  · intro j _
    rw [shape?_follow, shape?_register]
  · exact Nat.le_of_eq ((size_objects_alter ..).trans (size_objects_alter ..)).symm
  · rw [relation?_of_property? hp, hfree]
    rfl

/-- A new object that has no source is registered nowhere. -/
theorem Linked.create {w : World V} (hw : w.Linked) {b : Body V}
    (hfree : ∀ i, b.relation? i = none) : (w.create b).Linked := by
  constructor
  · intro j r t ht
    rw [registrations_create, relation?_create, hw.count j r t ht]
    -- Nothing is registered under the number of the new object yet.
    by_cases ht' : t = w.objects.size
    · have hnew : w.relation? w.objects.size = none :=
        relation?_of_dead (object?_of_size_le (Nat.le_refl _))
      rw [if_pos ht', ht', hnew, hfree]
      simp
    · rw [if_neg ht']
      by_cases hrelation : w.relation? t = some (j, r)
      · have halive : (w.create b).alive j = w.alive j := by
          apply alive_congr
          rw [shape?_create, if_neg (Nat.ne_of_lt (hw.source t j r hrelation).1)]
        rw [halive]
      · rw [if_neg (fun h => hrelation h.2), if_neg (fun h => hrelation h.2)]
  · intro t j r hr
    rw [relation?_create] at hr
    split at hr
    · rw [hfree] at hr
      cases hr
    · obtain ⟨hlt, hbare⟩ := hw.source t j r hr
      rw [size_objects_create, shape?_create, if_neg (Nat.ne_of_lt hlt)]
      exact ⟨Nat.lt_succ_of_lt hlt, hbare⟩

/-- A new binding is registered with its source. -/
theorem Linked.wrap {w : World V} (hw : w.Linked) {source : Id} (v : V)
    (convert : V → Script V .converter) (halive : w.alive source = true)
    (hbare : w.shape? source ≠ some .bare) :
    ((w.register source (.derived w.objects.size)).create
      (.binding ⟨v, convert, source⟩)).Linked := by
  have hsize : (w.register source (.derived w.objects.size)).objects.size = w.objects.size :=
    size_objects_alter ..
  apply hw.link (r := .derived w.objects.size) rfl _ halive hbare
  · intro j
    rw [registrations_create, registrations_register _ _ _ _ halive]
  · intro u
    rw [relation?_create, hsize, relation?_register]
    by_cases hu : u = w.objects.size
    · rw [if_pos hu, if_pos hu.symm, hu]
      rfl
    · rw [if_neg hu, if_neg (Ne.symm hu)]
  · intro j hj
    rw [shape?_create, hsize, if_neg (Nat.ne_of_lt hj), shape?_register]
  · rw [size_objects_create, hsize]
    exact Nat.le_succ _
  · exact relation?_of_dead (object?_of_size_le (Nat.le_refl _))

/-! ## Relations that end -/

/-- Once its one registration is taken out, an object is registered nowhere. -/
theorem Linked.count_erase_relation {w : World V} (hw : w.Linked) {k t : Id} {r : Registration}
    (hrelation : w.relation? t = some (k, r)) (j : Id) {s : Registration}
    (hs : s.target? = some t) :
    (if k = j then (w.registrations j).erase r else w.registrations j).count s = 0 := by
  have hcount := hw.count j s t hs
  rw [hrelation] at hcount
  -- Either the erased entry is the counted one, or there was none to count.
  by_cases hpair : k = j ∧ r = s
  · obtain ⟨rfl, rfl⟩ := hpair
    rw [if_pos rfl, List.count_erase_self, hcount]
    split <;> rfl
  · have hzero : (w.registrations j).count s = 0 := by
      rw [hcount, if_neg]
      rintro ⟨-, heq⟩
      cases heq
      exact hpair ⟨rfl, rfl⟩
    have herase := List.Sublist.count_le s (List.erase_sublist (a := r) (l := w.registrations j))
    split <;> omega

/-- An object loses its source, or its life. -/
theorem Linked.unlink {w w' : World V} (hw : w.Linked) {t : Id}
    (hgone : ∀ j s, s.target? = some t → (w'.registrations j).count s = 0)
    (hkept : ∀ j s u, u ≠ t → s.target? = some u → w'.alive j = true →
      (w'.registrations j).count s = (w.registrations j).count s)
    (hrelation : ∀ u, w'.relation? u = if t = u then none else w.relation? u)
    (hshape : ∀ j, w'.shape? j = none ∨ w'.shape? j = w.shape? j)
    (hsize : w'.objects.size = w.objects.size) : w'.Linked := by
  constructor
  · intro j s u hs
    by_cases htu : t = u
    · subst htu
      rw [hgone j s hs, hrelation, if_pos rfl, if_neg (by simp)]
    · rw [hrelation, if_neg htu]
      cases halive : w'.alive j with
      | false =>
        -- The list of a dead object is empty, and no relation to it counts.
        have hdead : w'.object? j = none := by
          simpa [alive] using halive
        rw [registrations_of_dead hdead]
        simp
      | true =>
        obtain ⟨x, hx⟩ := alive_iff_shape?.1 halive
        rcases hshape j with hnone | hsame
        · rw [hx] at hnone
          cases hnone
        · rw [hkept j s u (Ne.symm htu) hs halive, hw.count j s u hs, ← alive_congr hsame, halive]
  · intro u j s hs
    rw [hrelation] at hs
    split at hs
    · cases hs
    · obtain ⟨hlt, hbare⟩ := hw.source u j s hs
      rw [hsize]
      refine ⟨hlt, ?_⟩
      rcases hshape j with hnone | hsame
      · simp [hnone]
      · rw [hsame]
        exact hbare

theorem Linked.unbind {w : World V} (hw : w.Linked) {i source : Id} {p : Property V}
    (hp : w.property? i = some p) (hbound : p.source = some source) :
    ((w.follow i none).unregister source (.bound i)).Linked := by
  have hsome : w.relation? i = some (source, .bound i) := by
    rw [relation?_of_property? hp, hbound]
    rfl
  apply hw.unlink (t := i)
  · intro j s hs
    rw [registrations_unregister, registrations_follow]
    exact hw.count_erase_relation hsome j hs
  · intro j s u hne hs _
    have hs' : Registration.bound i ≠ s := by
      rintro rfl
      exact hne (Option.some.inj hs).symm
    rw [count_registrations_unregister hs', registrations_follow]
  · intro u
    rw [relation?_unregister, relation?_follow hp]
    rfl
  · intro j
    right
    rw [shape?_unregister, shape?_follow]
  · exact (size_objects_alter ..).trans (size_objects_alter ..)

/-- The registration of a buried object goes with it. -/
theorem Linked.bury {w : World V} (hw : w.Linked) (i : Id) : (w.bury i).Linked := by
  -- The list of the buried object goes as well, and what it said of others with it.
  apply hw.unlink (t := i)
  · intro j s hs
    rw [registrations_bury]
    split
    · rfl
    · cases hrelation : w.relation? i with
      | none => exact hw.count_eq_zero_of_free hs hrelation
      | some x => exact hw.count_erase_relation hrelation j hs
  · intro j s u hne hs halive
    have hij : i ≠ j := by
      rintro rfl
      simp [alive, object?_bury_self] at halive
    rw [registrations_bury, if_neg hij]
    cases hrelation : w.relation? i with
    | none => rfl
    | some x =>
      have hxs : s ≠ x.2 := by
        rintro rfl
        rw [target?_of_relation? hrelation] at hs
        exact hne (Option.some.inj hs).symm
      by_cases hk : x.1 = j
      · simp only [if_pos hk]
        exact List.count_erase_of_ne hxs
      · simp only [if_neg hk]
  · exact relation?_bury w i
  · intro j
    rw [shape?_bury]
    split
    · exact .inl rfl
    · exact .inr rfl
  · exact size_objects_bury w i

end World

end Observable
