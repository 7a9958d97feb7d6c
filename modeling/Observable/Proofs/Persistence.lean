import Observable.Proofs.Holding

/-!
# What persists

An object that outlives an edit of the world keeps its body, unless the edit binds or releases it,
and it keeps its listeners, unless the edit adds or removes one of them. Registrations of other
objects come and go meanwhile, which never changes the order of the rest (`Respliced`). Ends of
lives are treated once, by `World.Outlived`. Listeners are never removed (`Table.Grown`).
-/

namespace Observable

variable {V : Type}

/-- One list of registrations has become another, and only registrations of objects have come, at
the end, or gone. -/
inductive Respliced : List Registration → List Registration → Prop
  | refl (l : List Registration) : Respliced l l
  | enter {l m : List Registration} {r : Registration} {t : Id} (hprior : Respliced l m)
      (ht : r.target? = some t) : Respliced l (m ++ [r])
  | leave {l m : List Registration} {r : Registration} {t : Id} (hprior : Respliced l m)
      (ht : r.target? = some t) : Respliced l (m.erase r)

namespace Respliced

theorem trans {l m n : List Registration} (hfirst : Respliced l m) (hsecond : Respliced m n) :
    Respliced l n := by
  induction hsecond with
  | refl => exact hfirst
  | enter _ ht ih => exact .enter ih ht
  | leave _ ht ih => exact .leave ih ht

theorem of_eq {l m : List Registration} (heq : m = l) : Respliced l m := by
  rw [heq]
  exact .refl l

/-- The first of a list stays first if it is a listener. -/
theorem head_listener {l m : List Registration} (hl : Respliced l m) {a : ListenerId}
    {rest : List Registration} (hhead : l = .listener a :: rest) :
    ∃ rest', m = .listener a :: rest' := by
  induction hl with
  | refl => exact ⟨rest, hhead⟩
  | enter _ _ ih =>
    obtain ⟨rest', hrest⟩ := ih
    exact ⟨rest' ++ _, by rw [hrest]; rfl⟩
  | @leave _ r t _ ht ih =>
    -- What leaves is no listener, so it is erased behind the head.
    obtain ⟨rest', hrest⟩ := ih
    refine ⟨rest'.erase r, ?_⟩
    have hne : (Registration.listener a == r) = false := by
      simpa using World.listener_ne ht
    rw [hrest, List.erase_cons_tail (by simpa using hne)]

/-- There are as many listeners of any kind as before. -/
theorem countP_listener {l m : List Registration} (hl : Respliced l m) {p : Registration → Bool}
    (hp : ∀ r t, r.target? = some t → p r = false) : m.countP p = l.countP p := by
  induction hl with
  | refl => rfl
  | enter _ ht ih => simp [List.countP_append, ih, hp _ _ ht]
  | @leave m r t _ ht ih =>
    rw [← ih]
    by_cases hr : r ∈ m
    · have hcount := (List.perm_cons_erase hr).countP_eq p
      simpa [hp r t ht] using hcount.symm
    · rw [List.erase_of_not_mem hr]

/-- The listeners that stay were there. -/
theorem mem_listener {l m : List Registration} (hl : Respliced l m) {a : ListenerId}
    (hmem : .listener a ∈ m) : .listener a ∈ l := by
  have hcount : m.count (.listener a) = l.count (.listener a) :=
    hl.countP_listener fun r t ht => by simpa using Ne.symm (World.listener_ne ht)
  rw [← List.count_pos_iff, ← hcount]
  exact List.count_pos_iff.2 hmem

end Respliced

/-- A part of what an object is that neither a new value nor a new source touches, such as its
callbacks. -/
structure Body.IsFixed {α : Type} (part : Body V → Option α) : Prop where
  store : ∀ v b, part (Body.store v b) = part b
  follow : ∀ source b, part (Body.follow source b) = part b

namespace Table

variable {α : Type}

/-- Nothing has been removed. -/
def Full (t : Table α) : Prop := ∀ i < t.size, (t.get? i).isSome = true

/-- Entries have been added or changed, but none has been removed. -/
structure Grown (t u : Table α) : Prop where
  size : t.size ≤ u.size
  full : t.Full → u.Full

theorem full_empty : ({} : Table α).Full := fun _ hlt => absurd hlt (Nat.not_lt_zero _)

theorem grown_of_eq {t u : Table α} (heq : u = t) : t.Grown u := by
  subst heq
  exact ⟨Nat.le_refl _, id⟩

theorem Grown.trans {t u v : Table α} (hfirst : t.Grown u) (hsecond : u.Grown v) : t.Grown v :=
  ⟨Nat.le_trans hfirst.size hsecond.size, fun h => hsecond.full (hfirst.full h)⟩

theorem grown_push (t : Table α) (a : α) : t.Grown (t.push a) where
  size := by simp
  full := by
    intro hfull i hlt
    rw [get?_push]
    split
    · rfl
    · rw [size_push] at hlt
      exact hfull i (by omega)

theorem grown_modify (t : Table α) (j : Nat) (f : α → α) : t.Grown (t.modify j f) where
  size := by simp
  full := by
    intro hfull i hlt
    rw [size_modify] at hlt
    rw [get?_modify]
    split
    · simpa using hfull i hlt
    · exact hfull i hlt

end Table

/-- What was sent through a listener, if it is a channel. -/
def Listener.sent? : Listener V → Option (List (Change V))
  | .channel sent _ => some sent
  | .callback _ _ => none

namespace World

/-- The body of a live object. -/
def body? (w : World V) (i : Id) : Option (Body V) := (w.object? i).map (·.body)

theorem shape?_eq_body? (w : World V) (i : Id) : w.shape? i = (w.body? i).map Body.shape := by
  unfold shape? body?
  rw [Option.map_map]
  rfl

theorem value?_eq_body? (w : World V) (i : Id) : w.value? i = (w.body? i).bind Body.value? := by
  unfold value? body?
  cases w.object? i <;> rfl

theorem relation?_eq_body? (w : World V) (i : Id) :
    w.relation? i = (w.body? i).bind (Body.relation? i) := by
  unfold relation? body?
  cases w.object? i <;> rfl

theorem property?_eq_body? (w : World V) (i : Id) :
    w.property? i = (w.body? i).bind Body.property? := by
  unfold property? body?
  cases w.object? i <;> rfl

theorem binding?_eq_body? (w : World V) (i : Id) :
    w.binding? i = (w.body? i).bind Body.binding? := by
  unfold binding? body?
  cases w.object? i <;> rfl

theorem body?_of_property? {w : World V} {i : Id} {p : Property V} (hp : w.property? i = some p) :
    w.body? i = some (.property p) := by
  obtain ⟨l, ho⟩ := property?_eq_some_iff.1 hp
  simp [body?, ho]

theorem body?_of_binding? {w : World V} {i : Id} {b : Binding V} (hb : w.binding? i = some b) :
    w.body? i = some (.binding b) := by
  obtain ⟨l, ho⟩ := binding?_eq_some_iff.1 hb
  simp [body?, ho]

theorem alive_iff_body? {w : World V} {i : Id} :
    w.alive i = true ↔ ∃ b, w.body? i = some b := by
  unfold alive body?
  cases w.object? i <;> simp

/-- Some lives of the first world have ended in the second. -/
structure Outlived (w w' : World V) : Prop where
  body : ∀ i, w'.alive i = true → w'.body? i = w.body? i
  registrations : ∀ i, w'.alive i = true → Respliced (w.registrations i) (w'.registrations i)

theorem Outlived.of_objects {w w' : World V} (hobjects : w'.objects = w.objects) :
    w.Outlived w' where
  body := by
    intro i _
    unfold body? object?
    rw [hobjects]
  registrations := by
    intro i _
    apply Respliced.of_eq
    unfold World.registrations object?
    rw [hobjects]

/-- Nothing comes back to life. -/
theorem Outlived.alive {w w' : World V} (hw : w.Outlived w') {i : Id}
    (halive : w'.alive i = true) : w.alive i = true := by
  obtain ⟨b, hb⟩ := alive_iff_body?.1 halive
  rw [hw.body i halive] at hb
  exact alive_iff_body?.2 ⟨b, hb⟩

theorem Outlived.trans {w w' w'' : World V} (hfirst : w.Outlived w') (hsecond : w'.Outlived w'') :
    w.Outlived w'' where
  body := by
    intro i halive
    rw [hsecond.body i halive, hfirst.body i (hsecond.alive halive)]
  registrations := by
    intro i halive
    exact (hfirst.registrations i (hsecond.alive halive)).trans (hsecond.registrations i halive)

theorem outlived_bury (w : World V) (i : Id) : w.Outlived (w.bury i) where
  body := by
    intro j halive
    have hij : i ≠ j := by
      rintro rfl
      simp [World.alive, object?_bury_self] at halive
    unfold body?
    rw [object?_bury, if_neg hij]
    split
    · split
      · cases w.object? j <;> rfl
      · rfl
    · rfl
  registrations := by
    intro j halive
    have hij : i ≠ j := by
      rintro rfl
      simp [World.alive, object?_bury_self] at halive
    rw [registrations_bury, if_neg hij]
    cases hrelation : w.relation? i with
    | none => exact .refl _
    | some x =>
      by_cases hx : x.1 = j
      · simp only [hx, if_true]
        exact .leave (.refl _) (target?_of_relation? hrelation)
      · simp only [hx, if_false]
        exact .refl _

theorem outlived_release (w : World V) (held : List Id) (i : Id) :
    w.Outlived (w.release held i) := by
  unfold release
  split
  · exact .of_objects rfl
  · exact outlived_bury w i

theorem outlived_discard (w : World V) (held : List Id) (h : Option Handle) :
    w.Outlived (w.discard held h) := by
  unfold discard
  split
  · exact .of_objects rfl
  · exact outlived_release w held _

theorem outlived_assign (w : World V) (held : List Id) (n : String) (h : Handle) :
    w.Outlived (w.assign held n h) := by
  refine Outlived.trans ?_ (outlived_discard _ held _)
  exact .of_objects rfl

theorem outlived_forget (w : World V) (held : List Id) (n : String) :
    w.Outlived (w.forget held n) := by
  refine Outlived.trans ?_ (outlived_discard _ held _)
  exact .of_objects rfl

/-- A new listener gets up to two names, which may end two lives. -/
theorem outlived_channel (w : World V) (held : List Id) (l : Listener V) (n m : String)
    (h g : Handle) : w.Outlived (((w.createListener l).assign held n h).assign held m g) := by
  have hcreate : w.Outlived (w.createListener l) := .of_objects rfl
  have hfirst := outlived_assign (w.createListener l) held n h
  exact (hcreate.trans hfirst).trans (outlived_assign _ held m g)

/-! ## Births and writes -/

/-- A birth changes nothing of the objects that were there. -/
theorem body?_create (w : World V) (b : Body V) (i : Id) :
    (w.create b).body? i = if i = w.objects.size then some b else w.body? i := by
  unfold body?
  rw [object?_create]
  split <;> rfl

theorem body?_alter {f : Object V → Object V} (hf : ∀ o, (f o).body = o.body) (w : World V)
    (i j : Id) : (w.alter i f).body? j = w.body? j := by
  unfold body?
  rw [object?_alter]
  by_cases h : i = j
  · rw [if_pos h, Option.map_map]
    congr 1
    funext o
    exact hf o
  · rw [if_neg h]

@[simp] theorem body?_register (w : World V) (i j : Id) (r : Registration) :
    (w.register i r).body? j = w.body? j := by
  apply body?_alter
  intro o
  rfl

@[simp] theorem body?_unregister (w : World V) (i j : Id) (r : Registration) :
    (w.unregister i r).body? j = w.body? j := by
  apply body?_alter
  intro o
  rfl

theorem body?_follow_of_ne (w : World V) {i j : Id} (hne : i ≠ j) (source : Option Id) :
    (w.follow i source).body? j = w.body? j := by
  unfold body? follow
  rw [object?_alter, if_neg hne]

theorem body?_store_self (w : World V) (i : Id) (v : V) :
    (w.store i v).body? i = (w.body? i).map (Body.store v) := by
  unfold body? World.store
  rw [object?_alter, if_pos rfl, Option.map_map, Option.map_map]
  rfl

theorem body?_store_of_ne (w : World V) {i j : Id} (hne : i ≠ j) (v : V) :
    (w.store i v).body? j = w.body? j := by
  unfold body? store
  rw [object?_alter, if_neg hne]

theorem bind_body?_alter {α : Type} {part : Body V → Option α} {f : Object V → Object V}
    (hf : ∀ o, part (f o).body = part o.body) (w : World V) (i j : Id) :
    ((w.alter i f).body? j).bind part = (w.body? j).bind part := by
  unfold body?
  rw [object?_alter]
  by_cases h : i = j
  · rw [if_pos h]
    cases w.object? j with
    | none => rfl
    | some o => exact hf o
  · rw [if_neg h]

theorem respliced_register (w : World V) (i j : Id) {r : Registration} {t : Id}
    (ht : r.target? = some t) :
    Respliced (w.registrations j) ((w.register i r).registrations j) := by
  unfold registrations register
  rw [object?_alter]
  by_cases h : i = j
  · rw [if_pos h]
    cases w.object? j with
    | none => exact .refl _
    | some o => exact .enter (.refl _) ht
  · rw [if_neg h]
    exact .refl _

theorem respliced_unregister (w : World V) (i j : Id) {r : Registration} {t : Id}
    (ht : r.target? = some t) :
    Respliced (w.registrations j) ((w.unregister i r).registrations j) := by
  rw [registrations_unregister]
  split
  · exact .leave (.refl _) ht
  · exact .refl _

/-! ## What was sent through channels -/

/-- What was sent through a channel so far, taken or not. -/
def sent? (w : World V) (l : ListenerId) : Option (List (Change V)) :=
  (w.listeners.get? l).bind Listener.sent?

theorem sent?_congr {w w' : World V} (hlisteners : w'.listeners = w.listeners) (l : ListenerId) :
    w'.sent? l = w.sent? l := by
  rw [sent?, hlisteners, sent?]

theorem sent?_of_size_le {w : World V} {l : ListenerId} (hle : w.listeners.size ≤ l) :
    w.sent? l = none := by
  rw [sent?, Table.get?_eq_none_of_size_le hle]
  rfl

theorem sent?_createListener (w : World V) (x : Listener V) (l : ListenerId) :
    (w.createListener x).sent? l = if l = w.listeners.size then x.sent? else w.sent? l := by
  show ((w.listeners.push x).get? l).bind Listener.sent? = _
  rw [Table.get?_push]
  split <;> rfl

theorem sent?_alterListener (w : World V) (m l : ListenerId) (f : Listener V → Listener V) :
    (w.alterListener m f).sent? l =
      if m = l then (w.listeners.get? l).bind fun x => (f x).sent? else w.sent? l := by
  show ((w.listeners.modify m f).get? l).bind Listener.sent? = _
  rw [Table.get?_modify]
  split
  · cases w.listeners.get? l <;> rfl
  · rfl

theorem sent?_alterListener_of_same {f : Listener V → Listener V}
    (hf : ∀ x, (f x).sent? = x.sent?) (w : World V) (m l : ListenerId) :
    (w.alterListener m f).sent? l = w.sent? l := by
  rw [sent?_alterListener, World.sent?]
  simp only [hf, ite_self]

/-- What is sent through a channel comes after everything before. -/
theorem sent?_send (w : World V) (l : ListenerId) (c : Change V) :
    (w.alterListener l (Listener.send c)).sent? l = (w.sent? l).map (· ++ [c]) := by
  rw [sent?_alterListener, if_pos rfl, sent?]
  cases w.listeners.get? l with
  | none => rfl
  | some x => cases x <;> rfl

/-! ## Edits -/

/-- The property that an action binds or releases. -/
def rebound? (w : World V) : Action V → Option Id
  | .bind name _ => w.find? name Handle.property?
  | .unbind name => w.find? name Handle.property?
  | _ => none

/-- An object that outlives an edit keeps its body, unless it is bound or released. -/
theorem Edit.body? {w w' : World V} {held : List Id} {a : Action V} (hedit : w.Edit held a w')
    {i : Id} (hlt : i < w.objects.size) (halive : w'.alive i = true)
    (hrebound : w.rebound? a ≠ some i) : w'.body? i = w.body? i := by
  cases hedit with
  | read => rfl
  | property | listenerSet =>
    rw [(outlived_assign ..).body i halive, body?_create, if_neg (Nat.ne_of_lt hlt)]
  | listener => exact (outlived_assign ..).body i halive
  | channel => exact (outlived_channel ..).body i halive
  | view | copy | weak => exact (outlived_assign ..).body i halive
  | drop => exact (outlived_forget ..).body i halive
  | bind hname =>
    rw [body?_follow_of_ne, body?_register]
    rintro rfl
    exact hrebound hname
  | unbind hname =>
    rw [body?_unregister, body?_follow_of_ne]
    rintro rfl
    exact hrebound hname
  | add => exact body?_register ..
  | remove => exact body?_unregister ..
  | drain => rfl

/-- An object that outlives an edit keeps what is fixed about it. -/
theorem Edit.bind_body? {w w' : World V} {held : List Id} {a : Action V} (hedit : w.Edit held a w')
    {α : Type} {part : Body V → Option α} (hpart : Body.IsFixed part) {i : Id}
    (hlt : i < w.objects.size) (halive : w'.alive i = true) :
    (w'.body? i).bind part = (w.body? i).bind part := by
  by_cases hrebound : w.rebound? a = some i
  · cases hedit with
    | bind => rw [follow, bind_body?_alter (fun o => hpart.follow _ o.body), body?_register]
    | unbind => rw [body?_unregister, follow, bind_body?_alter fun o => hpart.follow _ o.body]
    | add => rw [body?_register]
    | remove => rw [body?_unregister]
    | read => rfl
    | _ => cases hrebound
  · rw [hedit.body? hlt halive hrebound]

/-- Nothing comes back to life, and what lives on stays what it is. -/
theorem Edit.shape? {w w' : World V} {held : List Id} {a : Action V} (hedit : w.Edit held a w')
    {i : Id} (hlt : i < w.objects.size) (halive : w'.alive i = true) :
    w'.shape? i = w.shape? i := by
  -- Binding and unbinding change the body, but not what it is the body of.
  by_cases hrebound : w.rebound? a = some i
  · cases hedit with
    | bind => rw [shape?_follow, shape?_register]
    | unbind => rw [shape?_unregister, shape?_follow]
    | add => exact shape?_register ..
    | remove => exact shape?_unregister ..
    | read => rfl
    | _ => cases hrebound
  · rw [shape?_eq_body?, shape?_eq_body?, hedit.body? hlt halive hrebound]

/-- No edit writes a value. -/
theorem Edit.value? {w w' : World V} {held : List Id} {a : Action V} (hedit : w.Edit held a w')
    {i : Id} (hlt : i < w.objects.size) (halive : w'.alive i = true) :
    w'.value? i = w.value? i := by
  by_cases hrebound : w.rebound? a = some i
  · cases hedit with
    | bind => rw [value?_follow, value?_register]
    | unbind => rw [value?_unregister, value?_follow]
    | add => exact value?_register ..
    | remove => exact value?_unregister ..
    | read => rfl
    | _ => cases hrebound
  · rw [value?_eq_body?, value?_eq_body?, hedit.body? hlt halive hrebound]

/-- An edit makes no object, or one that has no source. -/
theorem Edit.born {w w' : World V} {held : List Id} {a : Action V} (hedit : w.Edit held a w') :
    w'.objects.size = w.objects.size ∨
      (w'.objects.size = w.objects.size + 1 ∧
        ∃ b : Body V, (∀ i, b.relation? i = none) ∧ (w.create b).Outlived w') := by
  cases hedit with
  | read | drain => exact .inl rfl
  | property name value validate report =>
    right
    rw [size_objects_assign, size_objects_create]
    exact ⟨rfl, _, fun _ => rfl, outlived_assign ..⟩
  | listenerSet name =>
    right
    rw [size_objects_assign, size_objects_create]
    exact ⟨rfl, _, fun _ => rfl, outlived_assign ..⟩
  | listener =>
    left
    rw [size_objects_assign]
    rfl
  | channel =>
    left
    rw [size_objects_assign, size_objects_assign]
    rfl
  | view | copy | weak => exact .inl (size_objects_assign ..)
  | drop => exact .inl (size_objects_forget ..)
  | bind | unbind => exact .inl ((size_objects_alter ..).trans (size_objects_alter ..))
  | add | remove => exact .inl (size_objects_alter ..)

theorem Edit.size_objects_le {w w' : World V} {held : List Id} {a : Action V}
    (hedit : w.Edit held a w') : w.objects.size ≤ w'.objects.size := by
  rcases hedit.born with hsize | ⟨hsize, _⟩
  · exact Nat.le_of_eq hsize.symm
  · omega

/-- What an edit makes has no source. -/
theorem Edit.relation?_of_size_le {w w' : World V} {held : List Id} {a : Action V}
    (hedit : w.Edit held a w') {t : Id} (hsize : w.objects.size ≤ t) :
    w'.relation? t = none := by
  cases ho : w'.object? t with
  | none => exact relation?_of_dead ho
  | some o =>
    have halive : w'.alive t = true := by simp [World.alive, ho]
    -- The number is that of the newborn, or of no object at all.
    rcases hedit.born with hsame | ⟨_, b, hb, houtlived⟩
    · have hlt := lt_size_of_alive halive
      rw [hsame] at hlt
      exact absurd hlt (Nat.not_lt_of_le hsize)
    · rw [relation?_eq_body?, houtlived.body t halive, ← relation?_eq_body?, relation?_create]
      split
      · exact hb t
      · exact relation?_of_dead (object?_of_size_le hsize)

/-- No listener ever goes. -/
theorem Edit.grown_listeners {w w' : World V} {held : List Id} {a : Action V}
    (hedit : w.Edit held a w') : w.listeners.Grown w'.listeners := by
  cases hedit with
  | read | bind | unbind | add | remove => exact Table.grown_of_eq rfl
  | property | listenerSet | view | copy | weak => exact Table.grown_of_eq (listeners_assign ..)
  | drop => exact Table.grown_of_eq (listeners_forget ..)
  | listener =>
    rw [listeners_assign]
    exact Table.grown_push _ _
  | channel =>
    rw [listeners_assign, listeners_assign]
    exact Table.grown_push _ _
  | drain => exact Table.grown_modify _ _ _

/-- Edits send nothing: a channel keeps what was sent through it, and begins with nothing. -/
theorem Edit.sent? {w w' : World V} {held : List Id} {a : Action V} (hedit : w.Edit held a w')
    (l : ListenerId) :
    w'.sent? l = w.sent? l ∨ (w.sent? l = none ∧ w'.sent? l = some []) := by
  cases hedit with
  | read | add | remove | bind | unbind => exact .inl rfl
  | property | listenerSet | view | copy | weak => exact .inl (sent?_congr (listeners_assign ..) l)
  | drop => exact .inl (sent?_congr (listeners_forget ..) l)
  | listener name body =>
    rw [sent?_congr (listeners_assign ..), sent?_createListener]
    by_cases hl : l = w.listeners.size
    · rw [if_pos hl, hl, sent?_of_size_le (Nat.le_refl _)]
      exact .inl rfl
    · rw [if_neg hl]
      exact .inl rfl
  | channel name receiver =>
    rw [sent?_congr (listeners_assign ..), sent?_congr (listeners_assign ..),
      sent?_createListener]
    by_cases hl : l = w.listeners.size
    · rw [if_pos hl, hl, sent?_of_size_le (Nat.le_refl _)]
      exact .inr ⟨rfl, rfl⟩
    · rw [if_neg hl]
      exact .inl rfl
  | drain receiver asText m =>
    left
    apply sent?_alterListener_of_same
    intro x
    cases x <;> rfl

/-- An object that outlives an edit keeps its listeners, unless one is added or removed. -/
theorem Edit.respliced {w w' : World V} {held : List Id} {a : Action V} (hedit : w.Edit held a w')
    {i : Id} (halive : w'.alive i = true)
    (hadd : ∀ l, w.addition? a ≠ some (i, l)) (hremove : ∀ l, w.removal? a ≠ some (i, l)) :
    Respliced (w.registrations i) (w'.registrations i) := by
  cases hedit with
  | read => exact .refl _
  | property | listenerSet =>
    refine .trans (.of_eq ?_) ((outlived_assign ..).registrations i halive)
    exact registrations_create ..
  | listener => exact (outlived_assign ..).registrations i halive
  | channel => exact (outlived_channel ..).registrations i halive
  | view | copy | weak => exact (outlived_assign ..).registrations i halive
  | drop => exact (outlived_forget ..).registrations i halive
  | bind =>
    rw [registrations_follow]
    exact respliced_register w _ i rfl
  | @unbind _ j =>
    refine .trans (.of_eq ?_) (respliced_unregister _ _ i (t := j) rfl)
    exact registrations_follow ..
  | @add _ j l hj =>
    apply Respliced.of_eq
    have hne : j ≠ i := by
      rintro rfl
      exact hadd l hj
    unfold registrations register
    rw [object?_alter, if_neg hne]
  | @remove _ j l hj =>
    apply Respliced.of_eq
    have hne : j ≠ i := by
      rintro rfl
      exact hremove l hj
    rw [registrations_unregister, if_neg hne]
  | drain => exact .refl _

end World

end Observable
