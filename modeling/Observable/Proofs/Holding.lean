import Observable.Proofs.Links

/-!
# Names, holds and lives

Every name denotes something that is there and is what the handle says (`World.Supports`), and every
live object is held by a name or by an operation in progress. Together with the agreement of
registrations and relations this is `World.Sound`, which speaks about a world and the list of
objects that operations in progress hold. An object to which the list lends one more hold survives;
`World.release` ends such a hold (`Sound.release`), and all edits keep the world sound
(`Edit.sound`) and the held objects as they are (`Edit.shape?_of_mem`).
-/

namespace Observable

variable {V : Type}

namespace World

/-- What a handle denotes is there, and of the right kind. -/
def Supports (w : World V) : Handle → Prop
  | .property i | .view i => w.shape? i = some .property
  | .binding i => w.shape? i = some .binding
  | .set i => w.shape? i = some .bare
  | .weak i => i < w.objects.size
  | .listener l | .receiver l => l < w.listeners.size

structure Sound (w : World V) (held : List Id) : Prop where
  linked : w.Linked
  names : ∀ (n : String) (h : Handle), w.names.find? n = some h → w.Supports h
  owned : ∀ i, w.alive i = true → w.names.holds i = true ∨ i ∈ held

/-! ## What a name says -/

theorem Supports.mono {w w' : World V} {h : Handle} (hs : w.Supports h)
    (hshape : ∀ i x, h.held? = some i → w.shape? i = some x → w'.shape? i = some x)
    (hobjects : w.objects.size ≤ w'.objects.size)
    (hlisteners : w.listeners.size ≤ w'.listeners.size) : w'.Supports h := by
  cases h with
  | property i => exact hshape i _ rfl hs
  | binding i => exact hshape i _ rfl hs
  | view i => exact hshape i _ rfl hs
  | set i => exact hshape i _ rfl hs
  | weak i => exact Nat.lt_of_lt_of_le hs hobjects
  | listener l => exact Nat.lt_of_lt_of_le hs hlisteners
  | receiver l => exact Nat.lt_of_lt_of_le hs hlisteners

/-- What a handle holds lives. -/
theorem Supports.alive {w : World V} {h : Handle} {i : Id} (hs : w.Supports h)
    (hi : h.held? = some i) : w.alive i = true := by
  cases h with
  | property j => cases hi; exact alive_of_shape? hs
  | binding j => cases hi; exact alive_of_shape? hs
  | view j => cases hi; exact alive_of_shape? hs
  | set j => cases hi; exact alive_of_shape? hs
  | weak j => cases hi
  | listener l => cases hi
  | receiver l => cases hi

theorem Sound.alive_of_listened {w : World V} {held : List Id} (hw : w.Sound held) {name : String}
    {i : Id} (hname : w.find? name Handle.listened? = some i) : w.alive i = true := by
  obtain ⟨h, hfind, hi⟩ := names_find?_of_find? hname
  exact (hw.names name h hfind).alive hi

theorem Sound.shape?_of_property {w : World V} {held : List Id} (hw : w.Sound held)
    {name : String} {i : Id} (hname : w.find? name Handle.property? = some i) :
    w.shape? i = some .property := by
  obtain ⟨h, hfind, hi⟩ := names_find?_of_find? hname
  cases h with
  | property j => cases hi; exact hw.names name _ hfind
  | _ => cases hi

theorem Sound.shape?_of_readable {w : World V} {held : List Id} (hw : w.Sound held)
    {name : String} {i : Id} (hname : w.find? name Handle.readable? = some i) :
    w.shape? i = some .property := by
  obtain ⟨h, hfind, hi⟩ := names_find?_of_find? hname
  cases h with
  | property j => cases hi; exact hw.names name _ hfind
  | view j => cases hi; exact hw.names name _ hfind
  | _ => cases hi

/-- An observable is a property or a binding. -/
theorem Sound.shape?_of_observable {w : World V} {held : List Id} (hw : w.Sound held)
    {name : String} {i : Id} (hname : w.find? name Handle.observable? = some i) :
    w.shape? i = some .property ∨ w.shape? i = some .binding := by
  obtain ⟨h, hfind, hi⟩ := names_find?_of_find? hname
  cases h with
  | property j => cases hi; exact .inl (hw.names name _ hfind)
  | view j => cases hi; exact .inl (hw.names name _ hfind)
  | binding j => cases hi; exact .inr (hw.names name _ hfind)
  | _ => cases hi

theorem Sound.shape?_of_set {w : World V} {held : List Id} (hw : w.Sound held)
    {name : String} {i : Id} (hname : w.find? name Handle.set? = some i) :
    w.shape? i = some .bare := by
  obtain ⟨h, hfind, hi⟩ := names_find?_of_find? hname
  cases h with
  | set j => cases hi; exact hw.names name _ hfind
  | _ => cases hi

theorem Sound.lt_size_of_numbered {w : World V} {held : List Id} (hw : w.Sound held)
    {name : String} {i : Id} (hname : w.find? name Handle.numbered? = some i) :
    i < w.objects.size := by
  obtain ⟨h, hfind, hi⟩ := names_find?_of_find? hname
  have hs := hw.names name h hfind
  cases h with
  | property j => cases hi; exact lt_size_of_shape? hs
  | binding j => cases hi; exact lt_size_of_shape? hs
  | view j => cases hi; exact lt_size_of_shape? hs
  | set j => cases hi; exact lt_size_of_shape? hs
  | weak j => cases hi; exact hs
  | listener l => cases hi
  | receiver l => cases hi

/-! ## More and fewer holds -/

theorem Sound.mono {w : World V} {held held' : List Id} (hw : w.Sound held)
    (hsub : ∀ i ∈ held, i ∈ held') : w.Sound held' where
  linked := hw.linked
  names := hw.names
  owned := fun i halive => (hw.owned i halive).imp_right (hsub i)

/-- One hold on an object ends. -/
theorem Sound.release {w : World V} {held : List Id} {i : Id} (hw : w.Sound (i :: held)) :
    (w.release held i).Sound held := by
  unfold World.release
  split
  · next hheld =>
    -- A name or another frame still holds the object.
    refine ⟨hw.linked, hw.names, ?_⟩
    intro j halive
    rcases hw.owned j halive with hnamed | hmem
    · exact .inl hnamed
    · rcases List.mem_cons.1 hmem with rfl | hmem
      · simpa using hheld
      · exact .inr hmem
  · next hfree =>
    -- It was the last hold, so no name denotes the object that is buried.
    have hunnamed : w.names.holds i = false := by
      cases h : w.names.holds i
      · rfl
      · simp [h] at hfree
    refine ⟨hw.linked.bury i, ?_, ?_⟩
    · intro n h hfind
      rw [names_bury] at hfind
      apply (hw.names n h hfind).mono
      · intro j x hj hx
        have hij : i ≠ j := by
          rintro rfl
          have hheld := (Registry.holds_iff _ _).2 ⟨n, h, hfind, hj⟩
          rw [hunnamed] at hheld
          cases hheld
        rw [shape?_bury, if_neg hij]
        exact hx
      · exact Nat.le_of_eq (size_objects_bury w i).symm
      · exact Nat.le_of_eq (congrArg Table.size (listeners_bury w i).symm)
    · intro j halive
      obtain ⟨x, hx⟩ := alive_iff_shape?.1 halive
      rw [shape?_bury] at hx
      split at hx
      · cases hx
      · next hij =>
        rw [names_bury]
        rcases hw.owned j (alive_of_shape? hx) with hnamed | hmem
        · exact .inl hnamed
        · rcases List.mem_cons.1 hmem with rfl | hmem
          · exact absurd rfl hij
          · exact .inr hmem

theorem Sound.discard {w : World V} {held : List Id} {h : Option Handle}
    (hw : w.Sound ((h.bind Handle.held?).toList ++ held)) : (w.discard held h).Sound held := by
  unfold World.discard
  cases hi : h.bind Handle.held? with
  | none =>
    rw [hi] at hw
    exact hw
  | some i =>
    rw [hi] at hw
    exact hw.release

/-! ## Names come and go -/

/-- A name takes over a handle and the hold that comes with it; what the name held before is held
once more, by the list. -/
theorem Sound.insert {w : World V} {held : List Id} {h : Handle}
    (hw : w.Sound (h.held?.toList ++ held)) (hs : w.Supports h) (n : String) :
    ({ w with names := w.names.insert n h } : World V).Sound
      (((w.names.find? n).bind Handle.held?).toList ++ held) where
  linked := hw.linked.congr (fun _ _ _ _ => rfl) (fun _ => rfl) (fun _ => rfl) rfl
  names := by
    intro m g hfind
    have hfind' : (w.names.insert n h).find? m = some g := hfind
    rw [Registry.find?_insert] at hfind'
    split at hfind'
    · cases hfind'
      exact hs
    · exact hw.names m g hfind'
  owned := by
    intro i halive
    show (w.names.insert n h).holds i = true ∨ _
    rw [Registry.holds_iff]
    rcases hw.owned i halive with hnamed | hmem
    · obtain ⟨m, g, hfind, hg⟩ := (Registry.holds_iff _ _).1 hnamed
      -- The name that holds the object may be the one that is taken over.
      by_cases hm : m = n
      · right
        rw [hm] at hfind
        simp [hfind, hg]
      · left
        refine ⟨m, g, ?_, hg⟩
        rw [Registry.find?_insert, if_neg hm]
        exact hfind
    · rcases List.mem_append.1 hmem with hnew | hmem
      · left
        refine ⟨n, h, ?_, by simpa using hnew⟩
        rw [Registry.find?_insert, if_pos rfl]
      · exact .inr (List.mem_append_right _ hmem)

theorem Sound.erase {w : World V} {held : List Id} (hw : w.Sound held) (n : String) :
    ({ w with names := w.names.erase n } : World V).Sound
      (((w.names.find? n).bind Handle.held?).toList ++ held) where
  linked := hw.linked.congr (fun _ _ _ _ => rfl) (fun _ => rfl) (fun _ => rfl) rfl
  names := by
    intro m g hfind
    have hfind' : (w.names.erase n).find? m = some g := hfind
    rw [Registry.find?_erase] at hfind'
    split at hfind'
    · cases hfind'
    · exact hw.names m g hfind'
  owned := by
    intro i halive
    show (w.names.erase n).holds i = true ∨ _
    rw [Registry.holds_iff]
    rcases hw.owned i halive with hnamed | hmem
    · obtain ⟨m, g, hfind, hg⟩ := (Registry.holds_iff _ _).1 hnamed
      by_cases hm : m = n
      · right
        rw [hm] at hfind
        simp [hfind, hg]
      · left
        refine ⟨m, g, ?_, hg⟩
        rw [Registry.find?_erase, if_neg hm]
        exact hfind
    · exact .inr (List.mem_append_right _ hmem)

theorem Sound.assign {w : World V} {held : List Id} {h : Handle}
    (hw : w.Sound (h.held?.toList ++ held)) (hs : w.Supports h) (n : String) :
    (w.assign held n h).Sound held :=
  (hw.insert hs n).discard

/-- A second name for something that is there. -/
theorem Sound.rename {w : World V} {held : List Id} {h : Handle} (hw : w.Sound held)
    (hs : w.Supports h) (n : String) : (w.assign held n h).Sound held :=
  (hw.mono fun _ hi => List.mem_append_right _ hi).assign hs n

theorem Sound.forget {w : World V} {held : List Id} (hw : w.Sound held) (n : String) :
    (w.forget held n).Sound held :=
  (hw.erase n).discard

/-! ## Objects and listeners come -/

/-- A new object is held by the list until a name holds it. -/
theorem Sound.of_born {w w' : World V} {held : List Id} (hw : w.Sound held) {x : Shape}
    (hlinked : w'.Linked) (hnames : w'.names = w.names)
    (hshape : ∀ i, w'.shape? i = if i = w.objects.size then some x else w.shape? i)
    (hobjects : w'.objects.size = w.objects.size + 1) (hlisteners : w'.listeners = w.listeners) :
    w'.Sound (w.objects.size :: held) where
  linked := hlinked
  names := by
    intro n h hfind
    rw [hnames] at hfind
    apply (hw.names n h hfind).mono
    · intro i y _ hy
      rw [hshape, if_neg (Nat.ne_of_lt (lt_size_of_shape? hy))]
      exact hy
    · rw [hobjects]
      exact Nat.le_succ _
    · exact Nat.le_of_eq (congrArg Table.size hlisteners.symm)
  owned := by
    intro i halive
    obtain ⟨y, hy⟩ := alive_iff_shape?.1 halive
    rw [hshape] at hy
    split at hy
    · next hi =>
      rw [hi]
      exact .inr List.mem_cons_self
    · rw [hnames]
      exact (hw.owned i (alive_of_shape? hy)).imp_right (List.mem_cons_of_mem _)

theorem Sound.create {w : World V} {held : List Id} (hw : w.Sound held) {b : Body V}
    (hfree : ∀ i, b.relation? i = none) : (w.create b).Sound (w.objects.size :: held) :=
  hw.of_born (hw.linked.create hfree) rfl (shape?_create w b) (size_objects_create w b) rfl

/-- What keeps shapes, names and the agreement of registrations and relations is sound. -/
theorem Sound.of_linked {w w' : World V} {held : List Id} (hw : w.Sound held)
    (hlinked : w'.Linked) (hnames : w'.names = w.names)
    (hshape : ∀ i, w'.shape? i = w.shape? i)
    (hobjects : w'.objects.size = w.objects.size)
    (hlisteners : w.listeners.size ≤ w'.listeners.size) : w'.Sound held where
  linked := hlinked
  names := by
    intro n h hfind
    rw [hnames] at hfind
    apply (hw.names n h hfind).mono
    · intro i x _ hx
      rw [hshape]
      exact hx
    · exact Nat.le_of_eq hobjects.symm
    · exact hlisteners
  owned := by
    intro i halive
    rw [alive_congr (hshape i)] at halive
    rw [hnames]
    exact hw.owned i halive

theorem Sound.store {w : World V} {held : List Id} (hw : w.Sound held) (i : Id) (v : V) :
    (w.store i v).Sound held :=
  hw.of_linked (hw.linked.store i v) rfl (fun j => shape?_store w i j v) (size_objects_alter ..)
    (Nat.le_refl _)

theorem Sound.register_listener {w : World V} {held : List Id} (hw : w.Sound held) (i : Id)
    (l : ListenerId) : (w.register i (.listener l)).Sound held :=
  hw.of_linked (hw.linked.register_listener i l) rfl (fun j => shape?_register w i j _)
    (size_objects_alter ..) (Nat.le_refl _)

theorem Sound.unregister_listener {w : World V} {held : List Id} (hw : w.Sound held) (i : Id)
    (l : ListenerId) : (w.unregister i (.listener l)).Sound held :=
  hw.of_linked (hw.linked.unregister_listener i l) rfl (fun j => shape?_unregister w i j _)
    (size_objects_alter ..) (Nat.le_refl _)

theorem Sound.alterListener {w : World V} {held : List Id} (hw : w.Sound held) (l : ListenerId)
    (f : Listener V → Listener V) : (w.alterListener l f).Sound held :=
  hw.of_linked (hw.linked.congr (fun _ _ _ _ => rfl) (fun _ => rfl) (fun _ => rfl) rfl) rfl
    (fun _ => rfl) rfl (Nat.le_of_eq (Table.size_modify ..).symm)

theorem Sound.createListener {w : World V} {held : List Id} (hw : w.Sound held) (l : Listener V) :
    (w.createListener l).Sound held :=
  hw.of_linked (hw.linked.congr (fun _ _ _ _ => rfl) (fun _ => rfl) (fun _ => rfl) rfl) rfl
    (fun _ => rfl) rfl (Nat.le_of_lt (by simp [World.createListener]))

/-- An observable lives and has a value. -/
theorem alive_and_not_bare {w : World V} {i : Id}
    (hshape : w.shape? i = some .property ∨ w.shape? i = some .binding) :
    w.alive i = true ∧ w.shape? i ≠ some .bare := by
  rcases hshape with h | h
  · exact ⟨alive_of_shape? h, by simp [h]⟩
  · exact ⟨alive_of_shape? h, by simp [h]⟩

/-- A binding comes into being, gets its name, and its maker's hold on the source ends. -/
theorem Sound.wrap {w : World V} {held : List Id} {source : Id} (hw : w.Sound (source :: held))
    (v : V) (convert : V → Script V .converter)
    (hshape : w.shape? source = some .property ∨ w.shape? source = some .binding) (name : String) :
    ((((w.register source (.derived w.objects.size)).create (.binding ⟨v, convert, source⟩)).assign
      (source :: held) name (.binding w.objects.size)).release held source).Sound held := by
  obtain ⟨halive, hbare⟩ := alive_and_not_bare hshape
  have hlinked := hw.linked.wrap v convert halive hbare
  have hsize : (w.register source (.derived w.objects.size)).objects.size = w.objects.size :=
    size_objects_alter ..
  have hborn : ((w.register source (.derived w.objects.size)).create
      (.binding ⟨v, convert, source⟩)).Sound (w.objects.size :: source :: held) := by
    apply hw.of_born hlinked rfl _ _ rfl
    · exact .binding
    · intro i
      rw [shape?_create, hsize, shape?_register]
      rfl
    · rw [size_objects_create, hsize]
  -- The list holds the binding until its name does, and then lets the source go.
  apply Sound.release
  apply Sound.assign hborn
  show _ = some Shape.binding
  rw [shape?_create, hsize, if_pos rfl]
  rfl

/-! ## What becomes of held objects -/

@[simp] theorem listeners_release (w : World V) (held : List Id) (i : Id) :
    (w.release held i).listeners = w.listeners := by
  unfold World.release
  split
  · rfl
  · exact listeners_bury w i

@[simp] theorem size_objects_release (w : World V) (held : List Id) (i : Id) :
    (w.release held i).objects.size = w.objects.size := by
  unfold World.release
  split
  · rfl
  · exact size_objects_bury w i

@[simp] theorem size_objects_discard (w : World V) (held : List Id) (h : Option Handle) :
    (w.discard held h).objects.size = w.objects.size := by
  unfold World.discard
  split
  · rfl
  · exact size_objects_release w held _

@[simp] theorem size_objects_assign (w : World V) (held : List Id) (n : String) (h : Handle) :
    (w.assign held n h).objects.size = w.objects.size :=
  size_objects_discard ..

@[simp] theorem size_objects_forget (w : World V) (held : List Id) (n : String) :
    (w.forget held n).objects.size = w.objects.size :=
  size_objects_discard ..

@[simp] theorem listeners_discard (w : World V) (held : List Id) (h : Option Handle) :
    (w.discard held h).listeners = w.listeners := by
  unfold World.discard
  split
  · rfl
  · exact listeners_release w held _

@[simp] theorem listeners_assign (w : World V) (held : List Id) (n : String) (h : Handle) :
    (w.assign held n h).listeners = w.listeners :=
  listeners_discard ..

@[simp] theorem listeners_forget (w : World V) (held : List Id) (n : String) :
    (w.forget held n).listeners = w.listeners :=
  listeners_discard ..

theorem shape?_release_of_mem {w : World V} {held : List Id} {j : Id} (hj : j ∈ held) (i : Id) :
    (w.release held i).shape? j = w.shape? j := by
  unfold World.release
  split
  · rfl
  · next hfree =>
    rw [shape?_bury, if_neg]
    rintro rfl
    simp [hj] at hfree

theorem shape?_discard_of_mem {w : World V} {held : List Id} {j : Id} (hj : j ∈ held)
    (h : Option Handle) : (w.discard held h).shape? j = w.shape? j := by
  unfold World.discard
  split
  · rfl
  · exact shape?_release_of_mem hj _

theorem shape?_assign_of_mem {w : World V} {held : List Id} {j : Id} (hj : j ∈ held) (n : String)
    (h : Handle) : (w.assign held n h).shape? j = w.shape? j :=
  shape?_discard_of_mem hj _

theorem shape?_forget_of_mem {w : World V} {held : List Id} {j : Id} (hj : j ∈ held)
    (n : String) : (w.forget held n).shape? j = w.shape? j :=
  shape?_discard_of_mem hj _

/-! ## Edits -/

theorem Edit.sound {w w' : World V} {held : List Id} {a : Action V} (hedit : w.Edit held a w')
    (hw : w.Sound held) : w'.Sound held := by
  cases hedit with
  | read => exact hw
  | property name value validate report =>
    apply Sound.assign (hw.create fun _ => rfl)
    show _ = some Shape.property
    rw [shape?_create, if_pos rfl]
    rfl
  | listenerSet name =>
    apply Sound.assign (hw.create fun _ => rfl)
    show _ = some Shape.bare
    rw [shape?_create, if_pos rfl]
    rfl
  | listener name body =>
    apply (hw.createListener _).rename
    show _ < (w.listeners.push _).size
    rw [Table.size_push]
    exact Nat.lt_succ_self _
  | channel name receiver =>
    have hnew : w.listeners.size < (w.createListener (.channel [] 0)).listeners.size := by
      show _ < (w.listeners.push _).size
      rw [Table.size_push]
      exact Nat.lt_succ_self _
    apply Sound.rename
    · apply (hw.createListener _).rename
      exact hnew
    · show _ < (World.assign _ _ _ _).listeners.size
      rw [listeners_assign]
      exact hnew
  | view hname as =>
    apply hw.rename
    exact hw.shape?_of_readable hname
  | copy hname as => exact hw.rename (hw.names _ _ hname) as
  | weak hname as =>
    apply hw.rename
    exact lt_size_of_alive (hw.alive_of_listened hname)
  | drop name => exact hw.forget name
  | bind hname htarget hp hfree hne =>
    obtain ⟨halive, hbare⟩ := alive_and_not_bare (hw.shape?_of_observable htarget)
    apply hw.of_linked (hw.linked.bind hp hfree halive hbare) rfl _ _ (Nat.le_refl _)
    · intro j
      rw [shape?_follow, shape?_register]
    · exact (size_objects_alter ..).trans (size_objects_alter ..)
  | unbind hname hp hbound =>
    apply hw.of_linked (hw.linked.unbind hp hbound) rfl _ _ (Nat.le_refl _)
    · intro j
      rw [shape?_unregister, shape?_follow]
    · exact (size_objects_alter ..).trans (size_objects_alter ..)
  | add hadd => exact hw.register_listener _ _
  | remove hremove => exact hw.unregister_listener _ _
  | drain receiver asText l => exact hw.alterListener l _

/-- Held objects stay what they are. -/
theorem Edit.shape?_of_mem {w w' : World V} {held : List Id} {a : Action V}
    (hedit : w.Edit held a w') {j : Id} (hj : j ∈ held) {x : Shape} (hx : w.shape? j = some x) :
    w'.shape? j = some x := by
  have hne : j ≠ w.objects.size := Nat.ne_of_lt (lt_size_of_shape? hx)
  cases hedit with
  | read => exact hx
  | property | listenerSet => rw [shape?_assign_of_mem hj, shape?_create, if_neg hne, hx]
  | listener => rw [shape?_assign_of_mem hj]; exact hx
  | channel => rw [shape?_assign_of_mem hj, shape?_assign_of_mem hj]; exact hx
  | view | copy | weak => rw [shape?_assign_of_mem hj, hx]
  | drop => rw [shape?_forget_of_mem hj, hx]
  | bind => rw [shape?_follow, shape?_register, hx]
  | unbind => rw [shape?_unregister, shape?_follow, hx]
  | add => rw [shape?_register, hx]
  | remove => rw [shape?_unregister, hx]
  | drain => exact hx

end World

end Observable
