import Observable.Effect

/-!
# Reads after writes

What an object is (`World.shape?`) never changes while it lives, and where it is registered
(`World.relation?`) is decided by its body alone. This file says what the one-object writes of the
world and the end of an object's life do to these two, to the registration lists and to the values.
The later files read the world through these lemmas only.
-/

namespace Observable

/-- The three kinds of object. -/
inductive Shape where
  | property
  | binding
  | bare
  deriving DecidableEq, Repr

variable {V : Type}

namespace Body

def shape : Body V → Shape
  | .property _ => .property
  | .binding _ => .binding
  | .bare => .bare

@[simp] theorem shape_store (v : V) (b : Body V) : (b.store v).shape = b.shape := by
  cases b <;> rfl

@[simp] theorem shape_follow (source : Option Id) (b : Body V) :
    (b.follow source).shape = b.shape := by
  cases b <;> rfl

@[simp] theorem relation?_store (v : V) (b : Body V) (i : Id) :
    (b.store v).relation? i = b.relation? i := by
  cases b <;> rfl

@[simp] theorem value?_follow (source : Option Id) (b : Body V) :
    (b.follow source).value? = b.value? := by
  cases b <;> rfl

end Body

namespace World

/-- What an object is, while it lives. -/
def shape? (w : World V) (i : Id) : Option Shape := (w.object? i).map (·.body.shape)

/-- Where an object is registered, and as what. -/
def relation? (w : World V) (t : Id) : Option (Id × Registration) :=
  (w.object? t).bind (·.body.relation? t)

/-! ## The reads among themselves -/

theorem alive_iff_shape? {w : World V} {i : Id} :
    w.alive i = true ↔ ∃ x, w.shape? i = some x := by
  unfold alive shape?
  cases w.object? i <;> simp

theorem alive_of_shape? {w : World V} {i : Id} {x : Shape} (hshape : w.shape? i = some x) :
    w.alive i = true :=
  alive_iff_shape?.2 ⟨x, hshape⟩

theorem lt_size_of_shape? {w : World V} {i : Id} {x : Shape} (hshape : w.shape? i = some x) :
    i < w.objects.size := by
  obtain ⟨o, ho, -⟩ := Option.map_eq_some_iff.1 hshape
  exact Table.lt_size_of_get? ho

theorem lt_size_of_alive {w : World V} {i : Id} (halive : w.alive i = true) :
    i < w.objects.size := by
  obtain ⟨x, hx⟩ := alive_iff_shape?.1 halive
  exact lt_size_of_shape? hx

/-- A property is an object with the body of one. -/
theorem property?_eq_some_iff {w : World V} {i : Id} {p : Property V} :
    w.property? i = some p ↔ ∃ l, w.object? i = some ⟨.property p, l⟩ := by
  unfold property?
  constructor
  · intro hp
    obtain ⟨⟨b, l⟩, ho, hb⟩ := Option.bind_eq_some_iff.1 hp
    cases b with
    | property q =>
      cases hb
      exact ⟨l, ho⟩
    | _ => cases hb
  · rintro ⟨l, ho⟩
    simp [ho, Body.property?]

theorem binding?_eq_some_iff {w : World V} {i : Id} {b : Binding V} :
    w.binding? i = some b ↔ ∃ l, w.object? i = some ⟨.binding b, l⟩ := by
  unfold binding?
  constructor
  · intro hb
    obtain ⟨⟨body, l⟩, ho, hbody⟩ := Option.bind_eq_some_iff.1 hb
    cases body with
    | binding c =>
      cases hbody
      exact ⟨l, ho⟩
    | _ => cases hbody
  · rintro ⟨l, ho⟩
    simp [ho, Body.binding?]

theorem shape?_eq_property_iff {w : World V} {i : Id} :
    w.shape? i = some .property ↔ ∃ p, w.property? i = some p := by
  unfold shape? property?
  cases w.object? i with
  | none => simp
  | some o => cases hb : o.body <;> simp [Body.shape, Body.property?, hb]

theorem shape?_eq_binding_iff {w : World V} {i : Id} :
    w.shape? i = some .binding ↔ ∃ b, w.binding? i = some b := by
  unfold shape? binding?
  cases w.object? i with
  | none => simp
  | some o => cases hb : o.body <;> simp [Body.shape, Body.binding?, hb]

theorem value?_of_property? {w : World V} {i : Id} {p : Property V} (hp : w.property? i = some p) :
    w.value? i = some p.value := by
  obtain ⟨l, ho⟩ := property?_eq_some_iff.1 hp
  simp [value?, ho, Body.value?]

theorem value?_of_binding? {w : World V} {i : Id} {b : Binding V} (hb : w.binding? i = some b) :
    w.value? i = some b.value := by
  obtain ⟨l, ho⟩ := binding?_eq_some_iff.1 hb
  simp [value?, ho, Body.value?]

theorem relation?_of_property? {w : World V} {i : Id} {p : Property V}
    (hp : w.property? i = some p) : w.relation? i = p.source.map (·, .bound i) := by
  obtain ⟨l, ho⟩ := property?_eq_some_iff.1 hp
  simp [relation?, ho, Body.relation?]

theorem relation?_of_binding? {w : World V} {i : Id} {b : Binding V}
    (hb : w.binding? i = some b) : w.relation? i = some (b.source, .derived i) := by
  obtain ⟨l, ho⟩ := binding?_eq_some_iff.1 hb
  simp [relation?, ho, Body.relation?]

/-- What has a source is a bound property or a binding. -/
theorem dependent_of_relation? {w : World V} {t u : Id} {r : Registration}
    (hrelation : w.relation? t = some (u, r)) :
    (∃ p, w.property? t = some p ∧ p.source = some u ∧ r = .bound t) ∨
      ∃ b, w.binding? t = some b ∧ b.source = u ∧ r = .derived t := by
  obtain ⟨⟨body, l⟩, ho, hbody⟩ := Option.bind_eq_some_iff.1 hrelation
  cases body with
  | property p =>
    left
    obtain ⟨source, hsource, hpair⟩ := Option.map_eq_some_iff.1 hbody
    cases hpair
    exact ⟨p, property?_eq_some_iff.2 ⟨l, ho⟩, hsource, rfl⟩
  | binding b =>
    right
    cases hbody
    exact ⟨b, binding?_eq_some_iff.2 ⟨l, ho⟩, rfl, rfl⟩
  | bare => cases hbody

theorem source_of_property? {w : World V} {i u : Id} {r : Registration} {p : Property V}
    (hp : w.property? i = some p) (hrelation : w.relation? i = some (u, r)) :
    p.source = some u := by
  rw [relation?_of_property? hp] at hrelation
  obtain ⟨source, hsource, hpair⟩ := Option.map_eq_some_iff.1 hrelation
  cases hpair
  exact hsource

theorem source_of_binding? {w : World V} {i u : Id} {r : Registration} {b : Binding V}
    (hb : w.binding? i = some b) (hrelation : w.relation? i = some (u, r)) : b.source = u := by
  rw [relation?_of_binding? hb] at hrelation
  cases hrelation
  rfl

/-- An object is registered as one that writes itself. -/
theorem target?_of_relation? {w : World V} {t u : Id} {r : Registration}
    (hrelation : w.relation? t = some (u, r)) : r.target? = some t := by
  rcases dependent_of_relation? hrelation with ⟨_, _, _, rfl⟩ | ⟨_, _, _, rfl⟩ <;> rfl

theorem value?_of_relation? {w : World V} {t u : Id} {r : Registration}
    (hrelation : w.relation? t = some (u, r)) : ∃ v, w.value? t = some v := by
  rcases dependent_of_relation? hrelation with ⟨p, hp, _⟩ | ⟨b, hb, _⟩
  · exact ⟨_, value?_of_property? hp⟩
  · exact ⟨_, value?_of_binding? hb⟩

theorem alive_of_value? {w : World V} {i : Id} {v : V} (hvalue : w.value? i = some v) :
    w.alive i = true := by
  obtain ⟨o, ho, _⟩ := Option.bind_eq_some_iff.1 hvalue
  simp [alive, ho]

theorem shape?_ne_bare_of_value? {w : World V} {i : Id} {v : V}
    (hvalue : w.value? i = some v) : w.shape? i ≠ some .bare := by
  obtain ⟨⟨body, l⟩, ho, hbody⟩ := Option.bind_eq_some_iff.1 hvalue
  cases body with
  | bare => cases hbody
  | _ => simp [shape?, ho, Body.shape]

theorem alive_of_relation? {w : World V} {t u : Id} {r : Registration}
    (hrelation : w.relation? t = some (u, r)) : w.alive t = true := by
  obtain ⟨v, hvalue⟩ := value?_of_relation? hrelation
  exact alive_of_value? hvalue

/-- A bare set has no source. -/
theorem relation?_of_bare {w : World V} {i : Id} (hbare : w.shape? i = some .bare) :
    w.relation? i = none := by
  cases hrelation : w.relation? i with
  | none => rfl
  | some x =>
    obtain ⟨v, hvalue⟩ := value?_of_relation? hrelation
    exact absurd hbare (shape?_ne_bare_of_value? hvalue)

theorem relation?_of_dead {w : World V} {i : Id} (hdead : w.object? i = none) :
    w.relation? i = none := by
  simp [relation?, hdead]

theorem registrations_of_dead {w : World V} {i : Id} (hdead : w.object? i = none) :
    w.registrations i = [] := by
  simp [registrations, hdead]

/-- What is registered somewhere is registered with a live object. -/
theorem alive_of_mem_registrations {w : World V} {j : Id} {r : Registration}
    (hr : r ∈ w.registrations j) : w.alive j = true := by
  unfold alive
  cases ho : w.object? j with
  | none => simp [registrations, ho] at hr
  | some o => rfl

/-- A number that is not given yet is no object's. -/
theorem object?_of_size_le {w : World V} {i : Id} (hle : w.objects.size ≤ i) :
    w.object? i = none :=
  Table.get?_eq_none_of_size_le hle

/-! ## What the writes show -/

theorem shape?_alter {f : Object V → Object V} (hf : ∀ o, (f o).body.shape = o.body.shape)
    (w : World V) (i j : Id) : (w.alter i f).shape? j = w.shape? j := by
  unfold shape?
  rw [object?_alter]
  by_cases h : i = j
  · rw [if_pos h, Option.map_map]
    congr 1
    funext o
    exact hf o
  · rw [if_neg h]

@[simp] theorem shape?_store (w : World V) (i j : Id) (v : V) :
    (w.store i v).shape? j = w.shape? j :=
  shape?_alter (fun o => Body.shape_store v o.body) w i j

@[simp] theorem shape?_follow (w : World V) (i j : Id) (source : Option Id) :
    (w.follow i source).shape? j = w.shape? j :=
  shape?_alter (fun o => Body.shape_follow source o.body) w i j

@[simp] theorem shape?_register (w : World V) (i j : Id) (r : Registration) :
    (w.register i r).shape? j = w.shape? j := by
  apply shape?_alter
  intro o
  rfl

@[simp] theorem shape?_unregister (w : World V) (i j : Id) (r : Registration) :
    (w.unregister i r).shape? j = w.shape? j := by
  apply shape?_alter
  intro o
  rfl

/-- Which objects live depends on their shapes alone. -/
theorem alive_congr {w w' : World V} {i : Id} (hshape : w'.shape? i = w.shape? i) :
    w'.alive i = w.alive i := by
  rw [Bool.eq_iff_iff, alive_iff_shape?, alive_iff_shape?, hshape]

theorem relation?_alter {f : Object V → Object V}
    (hf : ∀ o t, (f o).body.relation? t = o.body.relation? t) (w : World V) (i j : Id) :
    (w.alter i f).relation? j = w.relation? j := by
  unfold relation?
  rw [object?_alter]
  by_cases h : i = j
  · rw [if_pos h]
    cases w.object? j with
    | none => rfl
    | some o => exact hf o j
  · rw [if_neg h]

@[simp] theorem relation?_store (w : World V) (i j : Id) (v : V) :
    (w.store i v).relation? j = w.relation? j :=
  relation?_alter (fun o t => Body.relation?_store v o.body t) w i j

@[simp] theorem relation?_register (w : World V) (i j : Id) (r : Registration) :
    (w.register i r).relation? j = w.relation? j := by
  apply relation?_alter
  intro o t
  rfl

@[simp] theorem relation?_unregister (w : World V) (i j : Id) (r : Registration) :
    (w.unregister i r).relation? j = w.relation? j := by
  apply relation?_alter
  intro o t
  rfl

theorem relation?_follow {w : World V} {i : Id} {p : Property V} (hp : w.property? i = some p)
    (source : Option Id) (j : Id) :
    (w.follow i source).relation? j =
      if i = j then source.map (·, .bound i) else w.relation? j := by
  obtain ⟨l, ho⟩ := property?_eq_some_iff.1 hp
  unfold relation? follow
  rw [object?_alter]
  by_cases h : i = j
  · subst h
    simp [ho, Body.follow, Body.relation?]
  · simp [h]

@[simp] theorem registrations_follow (w : World V) (i j : Id) (source : Option Id) :
    (w.follow i source).registrations j = w.registrations j := by
  unfold registrations follow
  rw [object?_alter]
  by_cases h : i = j
  · subst h
    cases w.object? i <;> simp
  · simp [h]

@[simp] theorem value?_follow (w : World V) (i j : Id) (source : Option Id) :
    (w.follow i source).value? j = w.value? j := by
  unfold value? follow
  rw [object?_alter]
  by_cases h : i = j
  · subst h
    cases w.object? i <;> simp
  · simp [h]

theorem value?_store_self {w : World V} {i : Id} {old : V} (hold : w.value? i = some old)
    (v : V) : (w.store i v).value? i = some v := by
  rw [value?_store, if_pos rfl, hold]
  rfl

/-- Nothing happens to a list from which something is removed that it does not have. -/
theorem unregister_of_not_mem {w : World V} {i : Id} {r : Registration}
    (hr : r ∉ w.registrations i) : w.unregister i r = w := by
  have hobjects : (w.unregister i r).objects = w.objects := by
    apply Table.ext_get?
    · exact size_objects_alter ..
    intro j
    show (w.unregister i r).object? j = w.object? j
    unfold unregister
    rw [object?_alter]
    by_cases h : i = j
    · subst h
      cases ho : w.object? i with
      | none => simp
      | some o =>
        have hnot : r ∉ o.registrations := by simpa [registrations, ho] using hr
        simp [List.erase_of_not_mem hnot]
    · simp [h]
  show ({ w with objects := (w.unregister i r).objects } : World V) = w
  rw [hobjects]

/-! ## A world is what it shows -/

theorem ext_object? {w w' : World V} (hobject : ∀ i, w'.object? i = w.object? i)
    (hsize : w'.objects.size = w.objects.size) (hlisteners : w'.listeners = w.listeners)
    (hnames : w'.names = w.names) : w' = w := by
  obtain ⟨objects, listeners, names⟩ := w
  obtain ⟨objects', listeners', names'⟩ := w'
  cases hlisteners
  cases hnames
  have hobjects : objects' = objects := Table.ext_get? hsize hobject
  rw [hobjects]

theorem alter_of_same {w : World V} {i : Id} {f : Object V → Object V}
    (hf : ∀ o, w.object? i = some o → f o = o) : w.alter i f = w := by
  refine ext_object? ?_ (size_objects_alter ..) rfl rfl
  intro j
  rw [object?_alter]
  split
  · next h =>
    subst h
    cases ho : w.object? i with
    | none => rfl
    | some o => exact congrArg some (hf o ho)
  · rfl

/-! ## What the beginning and the end of a life show -/

theorem shape?_create (w : World V) (b : Body V) (j : Id) :
    (w.create b).shape? j = if j = w.objects.size then some b.shape else w.shape? j := by
  unfold shape?
  rw [object?_create]
  split <;> rfl

theorem relation?_create (w : World V) (b : Body V) (j : Id) :
    (w.create b).relation? j =
      if j = w.objects.size then b.relation? j else w.relation? j := by
  unfold relation?
  rw [object?_create]
  split <;> rfl

theorem registrations_create (w : World V) (b : Body V) (j : Id) :
    (w.create b).registrations j = w.registrations j := by
  unfold registrations
  rw [object?_create]
  by_cases h : j = w.objects.size
  · rw [if_pos h, object?_of_size_le (Nat.le_of_eq h.symm)]
  · rw [if_neg h]

@[simp] theorem size_objects_create (w : World V) (b : Body V) :
    (w.create b).objects.size = w.objects.size + 1 :=
  Table.size_push ..

/-- A buried object is gone, and its own registration with it. -/
theorem object?_bury (w : World V) (i j : Id) :
    (w.bury i).object? j =
      if i = j then none
      else
        match w.relation? i with
        | some (k, r) =>
          if k = j then
            (w.object? j).map fun o => { o with registrations := o.registrations.erase r }
          else w.object? j
        | none => w.object? j := by
  by_cases h : i = j
  · subst h
    simp [object?_bury_self]
  · rw [if_neg h]
    unfold bury relation?
    cases ho : w.object? i with
    | none => rfl
    | some o =>
      have herase : (w.objects.erase i).get? j = w.object? j := Table.get?_erase_of_ne _ h
      simp only [Option.bind_some]
      cases hrelation : o.body.relation? i with
      | none => exact herase
      | some x =>
        simp only [unregister]
        rw [object?_alter]
        show (if x.1 = j then ((w.objects.erase i).get? j).map _
          else (w.objects.erase i).get? j) = _
        rw [herase]

theorem shape?_bury (w : World V) (i j : Id) :
    (w.bury i).shape? j = if i = j then none else w.shape? j := by
  unfold shape?
  rw [object?_bury]
  split
  · rfl
  · split
    · split
      · rw [Option.map_map]
        rfl
      · rfl
    · rfl

theorem relation?_bury (w : World V) (i j : Id) :
    (w.bury i).relation? j = if i = j then none else w.relation? j := by
  rw [relation?, object?_bury, relation?, relation?]
  split
  · rfl
  · split
    · split
      · cases w.object? j <;> rfl
      · rfl
    · rfl

theorem registrations_bury (w : World V) (i j : Id) :
    (w.bury i).registrations j =
      if i = j then []
      else
        match w.relation? i with
        | some (k, r) => if k = j then (w.registrations j).erase r else w.registrations j
        | none => w.registrations j := by
  unfold registrations
  rw [object?_bury]
  by_cases h : i = j
  · rw [if_pos h, if_pos h]
  · rw [if_neg h, if_neg h]
    cases w.relation? i with
    | none => rfl
    | some x =>
      by_cases hx : x.1 = j
      · simp only [hx, if_true]
        cases w.object? j <;> rfl
      · simp only [hx, if_false]

@[simp] theorem size_objects_bury (w : World V) (i : Id) :
    (w.bury i).objects.size = w.objects.size := by
  unfold bury
  cases w.object? i with
  | none => rfl
  | some o =>
    simp only
    split
    · exact Table.size_erase ..
    · exact (size_objects_alter ..).trans (Table.size_erase ..)

@[simp] theorem listeners_bury (w : World V) (i : Id) : (w.bury i).listeners = w.listeners := by
  unfold bury
  cases w.object? i with
  | none => rfl
  | some o => simp only; split <;> rfl

end World

end Observable
