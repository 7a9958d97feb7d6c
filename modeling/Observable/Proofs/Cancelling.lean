import Observable.Proofs.Commuting

/-!
# Binding and releasing cancel

A property that is bound, then left alone while other operations are performed, and then released
leaves no trace of having been bound (`Config.Run.bind_unbind`): the world is the one that the
operations alone come to, every value, list, number and life, and each of them has had the same
reply, even if one of them ended the life of the source.

`World.freed` takes the relation out of a world. It commutes with every operation that neither binds
nor releases the property nor shows the relation (`World.completion_freed`), because what such an
operation writes are other entries of the lists and other objects. An edit of a list by position
would not do: removal takes the first equal entry, and the entry of the property is the only one
that equals it.
-/

namespace Observable

variable {V : Type}

namespace World

/-! ## Writes that commute -/

theorem alter_alter (w : World V) (i : Id) (f g : Object V → Object V) :
    (w.alter i f).alter i g = w.alter i fun o => g (f o) := by
  refine ext_object? ?_ ?_ rfl rfl
  · intro j
    rw [object?_alter, object?_alter, object?_alter]
    split
    · rw [Option.map_map]
      rfl
    · rfl
  · simp

theorem alter_comm (w : World V) {i j : Id} {f g : Object V → Object V}
    (hcomm : i = j → ∀ o, g (f o) = f (g o)) :
    (w.alter i f).alter j g = (w.alter j g).alter i f := by
  by_cases h : i = j
  · subst h
    rw [alter_alter, alter_alter]
    congr 1
    funext o
    exact hcomm rfl o
  · refine ext_object? ?_ (by simp) rfl rfl
    intro k
    simp only [object?_alter]
    by_cases hi : i = k
    · have hj : j ≠ k := fun hj => h (hi.trans hj.symm)
      simp [hi, hj]
    · simp [hi]

/-- An object that is there is not touched by a birth. -/
theorem alter_create (w : World V) (b : Body V) {i : Id} (hlt : i < w.objects.size)
    (f : Object V → Object V) : (w.create b).alter i f = (w.alter i f).create b := by
  refine ext_object? ?_ (by simp) rfl rfl
  intro j
  simp only [object?_alter, object?_create, size_objects_alter]
  by_cases hj : j = w.objects.size
  · simp [hj, Nat.ne_of_lt hlt]
  · simp [hj]

/-- Adding at the end and removing the only such entry. -/
theorem unregister_register {w : World V} {i : Id} {r : Registration}
    (hr : r ∉ w.registrations i) : (w.register i r).unregister i r = w := by
  rw [register, unregister, alter_alter]
  apply alter_of_same
  intro o ho
  have hnot : r ∉ o.registrations := by simpa [registrations, ho] using hr
  simp [List.erase_append_right _ hnot]

theorem follow_none_of_free {w : World V} {i : Id} {p : Property V}
    (hp : w.property? i = some p) (hfree : p.source = none) : w.follow i none = w := by
  apply alter_of_same
  intro o ho
  obtain ⟨l, ho'⟩ := property?_eq_some_iff.1 hp
  rw [ho] at ho'
  cases ho'
  simp [Body.follow, ← hfree]

theorem follow_follow (w : World V) (i : Id) (a b : Option Id) :
    (w.follow i a).follow i b = w.follow i b := by
  rw [follow, follow, alter_alter]
  congr 1
  funext o
  cases o with
  | mk body l => cases body <;> rfl

/-! ## Without a relation -/

/-- The world in which `i` is bound to nothing, and in which `o` has one registration of it less. -/
def freed (w : World V) (i o : Id) : World V := (w.follow i none).unregister o (.bound i)

section

variable (w : World V) (i o : Id)

@[simp] theorem names_freed : (w.freed i o).names = w.names := rfl

@[simp] theorem listeners_freed : (w.freed i o).listeners = w.listeners := rfl

@[simp] theorem size_objects_freed : (w.freed i o).objects.size = w.objects.size := by
  simp [freed, unregister, follow]

@[simp] theorem find?_freed {α : Type} (name : String) (select : Handle → Option α) :
    (w.freed i o).find? name select = w.find? name select := rfl

@[simp] theorem shape?_freed (j : Id) : (w.freed i o).shape? j = w.shape? j := by
  simp [freed]

@[simp] theorem alive_freed (j : Id) : (w.freed i o).alive j = w.alive j :=
  alive_congr (shape?_freed ..)

@[simp] theorem value?_freed (j : Id) : (w.freed i o).value? j = w.value? j := by
  rw [freed, value?_unregister, value?_follow]

variable {i}

theorem body?_freed_of_ne {j : Id} (hne : j ≠ i) : (w.freed i o).body? j = w.body? j := by
  rw [freed, body?_unregister, body?_follow_of_ne _ hne.symm]

theorem property?_freed_of_ne {j : Id} (hne : j ≠ i) :
    (w.freed i o).property? j = w.property? j := by
  rw [property?_eq_body?, property?_eq_body?, body?_freed_of_ne w o hne]

theorem relation?_freed_of_ne {j : Id} (hne : j ≠ i) :
    (w.freed i o).relation? j = w.relation? j := by
  rw [relation?_eq_body?, relation?_eq_body?, body?_freed_of_ne w o hne]

theorem contains_freed {r : Registration} (hr : r ≠ .bound i) (j : Id) :
    ((w.freed i o).registrations j).contains r = (w.registrations j).contains r := by
  rw [freed, registrations_unregister, registrations_follow, Bool.eq_iff_iff,
    List.contains_iff_mem, List.contains_iff_mem]
  split
  · exact List.mem_erase_of_ne hr
  · rfl

/-! ## What commutes -/

/-- What commutes with a change of source and with the removal of one entry commutes with both. -/
theorem freed_alter {j : Id} {f : Object V → Object V}
    (hfollow : j = i → ∀ x : Object V,
      ({ f x with body := (f x).body.follow none } : Object V) =
        f { x with body := x.body.follow none })
    (herase : ∀ x : Object V,
      ({ f x with registrations := (f x).registrations.erase (.bound i) } : Object V) =
        f { x with registrations := x.registrations.erase (.bound i) }) :
    (w.alter j f).freed i o = (w.freed i o).alter j f :=
  calc ((w.alter j f).follow i none).unregister o (.bound i)
      = ((w.follow i none).alter j f).unregister o (.bound i) :=
        congrArg (·.unregister o (.bound i)) (alter_comm w hfollow)
    _ = ((w.follow i none).unregister o (.bound i)).alter j f := alter_comm _ fun _ => herase

theorem freed_register {r : Registration} (hr : r ≠ .bound i) (j : Id) :
    (w.register j r).freed i o = (w.freed i o).register j r := by
  refine freed_alter w o (fun _ _ => rfl) ?_
  intro x
  by_cases hmem : Registration.bound i ∈ x.registrations
  · simp [List.erase_append_left _ hmem]
  · have hlast : ([r] : List Registration).erase (.bound i) = [r] :=
      List.erase_of_not_mem (by simpa using hr.symm)
    simp [List.erase_append_right _ hmem, List.erase_of_not_mem hmem, hlast]

theorem freed_unregister (r : Registration) (j : Id) :
    (w.unregister j r).freed i o = (w.freed i o).unregister j r := by
  refine freed_alter w o (fun _ _ => rfl) ?_
  intro x
  simp [List.erase_comm]

theorem freed_follow {j : Id} (hne : j ≠ i) (source : Option Id) :
    (w.follow j source).freed i o = (w.freed i o).follow j source :=
  freed_alter w o (fun h => absurd h hne) fun _ => rfl

variable {o}

theorem freed_create (hi : i < w.objects.size) (ho : o < w.objects.size) (b : Body V) :
    (w.create b).freed i o = (w.freed i o).create b := by
  unfold freed follow unregister
  rw [alter_create w b hi, alter_create _ b (by simpa using ho)]

variable (o)

theorem freed_bury {j : Id} (hne : j ≠ i) : (w.bury j).freed i o = (w.freed i o).bury j := by
  refine ext_object? ?_ (by simp) (by simp) (by simp)
  intro k
  rw [object?_bury, relation?_freed_of_ne w o hne, freed, unregister, follow, freed, unregister,
    follow]
  simp only [object?_alter, object?_bury]
  by_cases hjk : j = k
  · subst hjk
    simp
  · simp only [if_neg hjk]
    cases w.relation? j with
    | none => rfl
    | some x =>
      simp only
      by_cases hx : x.1 = k <;> by_cases hi : i = k <;> by_cases ho : o = k <;>
        cases w.object? k <;> simp [hx, hi, ho, List.erase_comm]

theorem freed_release {held : List Id} {j : Id}
    (hkept : ((w.freed i o).release held j).alive i = true) :
    (w.freed i o).release held j = (w.release held j).freed i o := by
  unfold release at hkept ⊢
  rw [names_freed] at hkept ⊢
  split at hkept
  · next hheld => rw [if_pos hheld, if_pos hheld]
  · next hfree =>
    rw [if_neg hfree, if_neg hfree]
    -- A property that lives on has not been buried.
    have hne : j ≠ i := by
      rintro rfl
      simp [alive, object?_bury_self] at hkept
    exact (freed_bury w o hne).symm

theorem freed_discard {held : List Id} {h : Option Handle}
    (hkept : ((w.freed i o).discard held h).alive i = true) :
    (w.freed i o).discard held h = (w.discard held h).freed i o := by
  unfold discard at hkept ⊢
  cases hheld : h.bind Handle.held? with
  | none => rfl
  | some j =>
    rw [hheld] at hkept
    exact freed_release w o hkept

theorem freed_assign {held : List Id} {name : String} {h : Handle}
    (hkept : ((w.freed i o).assign held name h).alive i = true) :
    (w.freed i o).assign held name h = (w.assign held name h).freed i o :=
  freed_discard { w with names := w.names.insert name h } o hkept

theorem freed_forget {held : List Id} {name : String}
    (hkept : ((w.freed i o).forget held name).alive i = true) :
    (w.freed i o).forget held name = (w.forget held name).freed i o :=
  freed_discard { w with names := w.names.erase name } o hkept

end

/-- To bind a free property and to release it again takes back what was done to the world. -/
theorem freed_bind {w : World V} {i o : Id} {p : Property V} (hw : w.Linked)
    (hp : w.property? i = some p) (hfree : p.source = none) :
    ((w.register o (.bound i)).follow i (some o)).freed i o = w := by
  have hrelation : w.relation? i = none := by
    rw [relation?_of_property? hp, hfree]
    rfl
  have hnot : Registration.bound i ∉ w.registrations o :=
    List.count_eq_zero.1 (hw.count_eq_zero_of_free rfl hrelation)
  have hcomm : (w.register o (.bound i)).follow i none = (w.follow i none).register o (.bound i) :=
    alter_comm w fun _ _ => rfl
  rw [freed, follow_follow, hcomm, follow_none_of_free hp hfree,
    unregister_register hnot]

/-! ## Operations that overlook a relation -/

/-- The operation neither binds nor releases the property, does not show whether it is bound or how
long a list is, and runs no callback but a passive converter. -/
def Overlooks (w : World V) (i : Id) : Op V → Prop
  | .act (.bind name _) | .act (.unbind name) => w.find? name Handle.property? ≠ some i
  | .act (.isBound _) | .act (.count _) | .act (.isEmpty _) | .act (.describe _) => False
  | .act _ => True
  | .wrap _ _ convert => ∀ v, (convert v).IsPassive
  | .set _ _ | .notify _ _ _ _ => False

end World

/-- The effect in a world without the relation between `i` and `o`. -/
def Effect.freed (e : Effect V) (i o : Id) : Effect V := { e with world := e.world.freed i o }

namespace World

section

variable {w : World V} {i o : Id}

/-- What is only looked up, and then leads to the same, leads to the same. -/
theorem withName_freed_of_eq {α : Type} {name : String} {select : Handle → Option α}
    {go go' : α → Effect V}
    (hgo : ∀ a, w.find? name select = some a → go' a = (go a).freed i o) :
    (w.freed i o).withName name select go' = (w.withName name select go).freed i o := by
  unfold withName
  rw [find?_freed]
  cases hname : w.find? name select with
  | none => rfl
  | some a => exact hgo a hname

theorem withName_freed {α : Type} {name : String} {select : Handle → Option α}
    {go go' : α → Effect V}
    (hkept : ((w.freed i o).withName name select go').world.alive i = true)
    (hgo : ∀ a, (go' a).world.alive i = true → go' a = (go a).freed i o) :
    (w.freed i o).withName name select go' = (w.withName name select go).freed i o := by
  refine withName_freed_of_eq fun a ha => hgo a ?_
  rw [withName, find?_freed, ha] at hkept
  exact hkept

theorem named_freed {held : List Id} {name : String} {h : Handle}
    (hkept : ((w.freed i o).named held name h).world.alive i = true) :
    (w.freed i o).named held name h = (w.named held name h).freed i o := by
  have hassign := freed_assign w o hkept
  unfold named
  rw [hassign]
  rfl

theorem withLive_freed {α : Type} {found : Option α} {go go' : α → Effect V}
    (hgo : ∀ a, go' a = (go a).freed i o) :
    (w.freed i o).withLive found go' = (w.withLive found go).freed i o := by
  cases found with
  | none => rfl
  | some a => exact hgo a

theorem remove_freed {r : Registration} (hr : r ≠ .bound i) (j : Id) :
    (w.freed i o).remove j r = (w.remove j r).freed i o := by
  unfold remove
  rw [alive_freed, contains_freed w o hr, ← freed_unregister]
  split <;> rfl

theorem bind_freed {j : Id} (hne : j ≠ i) (source : Id) :
    (w.freed i o).bind j source = (w.bind j source).freed i o := by
  have hr : Registration.bound j ≠ .bound i := by simpa using hne
  unfold World.bind withLive
  rw [property?_freed_of_ne w o hne, ← freed_register w o hr, ← freed_follow _ o hne]
  cases w.property? j with
  | none => rfl
  | some p =>
    simp only
    split
    · rfl
    · split <;> rfl

theorem unbind_freed {j : Id} (hne : j ≠ i) :
    (w.freed i o).unbind j = (w.unbind j).freed i o := by
  have hr : Registration.bound j ≠ .bound i := by simpa using hne
  unfold World.unbind withLive
  rw [property?_freed_of_ne w o hne, ← freed_follow w o hne]
  cases w.property? j with
  | none => rfl
  | some p =>
    simp only
    split
    · rfl
    · rw [remove_freed hr]
      rfl

variable [BEq V]

/-- An action that overlooks a relation does the same without it. -/
theorem act_freed (hi : i < w.objects.size) (ho : o < w.objects.size) {held : List Id}
    {a : Action V} (ha : w.Overlooks i (.act a))
    (hkept : ((w.freed i o).act held a).world.alive i = true) :
    (w.freed i o).act held a = (w.act held a).freed i o := by
  cases a with
  | isBound | count | isEmpty | describe => exact ha.elim
  | bind name target =>
    refine withName_freed_of_eq fun j hj => withName_freed_of_eq fun source _ => bind_freed ?_ source
    rintro rfl
    exact ha hj
  | unbind name =>
    refine withName_freed_of_eq fun j hj => unbind_freed ?_
    rintro rfl
    exact ha hj
  | add name listener =>
    refine withName_freed_of_eq fun j _ => withName_freed_of_eq fun l _ => ?_
    rw [← freed_register w o (by simp)]
    rfl
  | remove name listener =>
    exact withName_freed_of_eq fun j _ => withName_freed_of_eq fun l _ => remove_freed (by simp) j
  | contains name listener =>
    refine withName_freed_of_eq fun j _ => withName_freed_of_eq fun l _ => ?_
    rw [contains_freed w o (by simp)]
    rfl
  | property name value validate report =>
    simp only [act, ← freed_create w hi ho, size_objects_freed] at hkept ⊢
    exact named_freed hkept
  | listenerSet name =>
    simp only [act, ← freed_create w hi ho, size_objects_freed] at hkept ⊢
    exact named_freed hkept
  | listener name body => exact named_freed (w := w.createListener _) hkept
  | channel name receiver =>
    -- What is alive after the second name has been given was alive after the first.
    have hfirst : ((w.freed i o).createListener (.channel [] 0)).assign held name
          (.listener w.listeners.size) =
        ((w.createListener (.channel [] 0)).assign held name (.listener w.listeners.size)).freed
          i o :=
      freed_assign (w.createListener _) o ((outlived_assign _ held receiver _).alive hkept)
    simp only [act, listeners_freed, hfirst] at hkept ⊢
    exact named_freed hkept
  | view name as => exact withName_freed hkept fun j hj => named_freed hj
  | copy name as => exact withName_freed hkept fun h hh => named_freed hh
  | weak name as => exact withName_freed hkept fun j hj => named_freed hj
  | drop name =>
    refine withName_freed hkept fun h hh => ?_
    have hforget := freed_forget w o hh
    simp only [hforget]
    rfl
  | get | display =>
    refine withName_freed_of_eq fun j _ => ?_
    rw [value?_freed]
    exact withLive_freed fun v => rfl
  | drain => exact withName_freed_of_eq fun l _ => withLive_freed fun queue => rfl
  | id => exact withName_freed_of_eq fun j _ => rfl
  | sameId | sameListener =>
    exact withName_freed_of_eq fun j _ => withName_freed_of_eq fun k _ => rfl
  | compare | constant => rfl

/-- An action that overlooks a property leaves it bound to what it is bound to. -/
theorem relation?_act (hw : w.Linked) {held : List Id} {a : Action V}
    (ha : w.Overlooks i (.act a)) (hi : i < w.objects.size)
    (hkept : (w.act held a).world.alive i = true) :
    (w.act held a).world.relation? i = w.relation? i := by
  refine (edit_act w held a).relation? hw hi hkept fun source hsource => ?_
  unfold rebinding? at hsource
  split at hsource
  · split at hsource
    · obtain ⟨j, hj, htarget⟩ := Option.bind_eq_some_iff.1 hsource
      obtain ⟨source', _, hpair⟩ := Option.map_eq_some_iff.1 htarget
      cases hpair
      exact ha hj
    · obtain ⟨j, hj, hpair⟩ := Option.map_eq_some_iff.1 hsource
      cases hpair
      exact ha hj
    · cases hsource
  · cases hsource

end

/-! ## Wrapping -/

/-- The world in which a binding of `source` has been made and named. -/
def wrapped (w : World V) (source : Id) (name : String) (convert : V → Script V .converter)
    (v : V) : World V :=
  (((w.register source (.derived w.objects.size)).create (.binding ⟨v, convert, source⟩)).assign
    [source] name (.binding w.objects.size)).release [] source

section

variable {w : World V} {i o : Id}

theorem wrapped_freed (hi : i < w.objects.size) (ho : o < w.objects.size) {source : Id}
    {name : String} {convert : V → Script V .converter} {v : V}
    (hkept : ((w.freed i o).wrapped source name convert v).alive i = true) :
    (w.freed i o).wrapped source name convert v = (w.wrapped source name convert v).freed i o := by
  unfold wrapped at hkept ⊢
  have hi' : i < (w.register source (.derived w.objects.size)).objects.size := by
    simpa [register] using hi
  have ho' : o < (w.register source (.derived w.objects.size)).objects.size := by
    simpa [register] using ho
  rw [size_objects_freed, ← freed_register w o (by simp), ← freed_create _ hi' ho'] at hkept ⊢
  have hassign := freed_assign _ o ((outlived_release _ [] source).alive hkept)
  rw [hassign] at hkept ⊢
  exact freed_release _ o hkept

theorem relation?_wrapped (hi : i < w.objects.size) {source : Id} {name : String}
    {convert : V → Script V .converter} {v : V}
    (hkept : (w.wrapped source name convert v).alive i = true) :
    (w.wrapped source name convert v).relation? i = w.relation? i := by
  have houtlived := (outlived_assign ((w.register source (.derived w.objects.size)).create
    (.binding ⟨v, convert, source⟩)) [source] name (.binding w.objects.size)).trans
    (outlived_release _ [] source)
  rw [relation?_eq_body?, relation?_eq_body?, wrapped, houtlived.body i hkept, Config.body?_wrap,
    if_neg (Nat.ne_of_lt hi)]

end

end World

/-! ## What an operation comes to -/

/-- The world after an operation, its events, and its reply. -/
structure Completion (V : Type) where
  world : World V
  events : List (Event V) := []
  reply : Reply V

/-- The completion in a world without the relation between `i` and `o`. -/
def Completion.freed (c : Completion V) (i o : Id) : Completion V :=
  { c with world := c.world.freed i o }

variable [BEq V]

namespace World

/-- What an operation comes to that runs no callback but a passive converter. -/
def completion (w : World V) : Op V → Completion V
  | .act a => ⟨(w.act [] a).world, (w.act [] a).traces.map .trace, (w.act [] a).reply⟩
  | .wrap name as convert =>
    match w.find? name Handle.observable? with
    | none => ⟨w, [], .unknownName⟩
    | some source =>
      match (w.value? source).bind fun v => (convert v).outcome? with
      | none => ⟨w, [], .unknownName⟩
      | some (events, v) =>
        ⟨w.wrapped source as convert v, events ++ [.trace (.wrapped w.objects.size source)],
          .done .unit⟩
  | _ => ⟨w, [], .unknownName⟩

theorem completion_freed {w : World V} {i o : Id} (hi : i < w.objects.size)
    (ho : o < w.objects.size) {op : Op V} (hop : w.Overlooks i op)
    (hkept : ((w.freed i o).completion op).world.alive i = true) :
    (w.freed i o).completion op = (w.completion op).freed i o := by
  cases op with
  | act a =>
    have hact := act_freed hi ho hop hkept
    simp only [completion, hact]
    rfl
  | set | notify => exact hop.elim
  | wrap name as convert =>
    simp only [completion, find?_freed, value?_freed, size_objects_freed] at hkept ⊢
    cases hname : w.find? name Handle.observable? with
    | none => rfl
    | some source =>
      simp only [hname] at hkept ⊢
      split
      · rfl
      · next events v houtcome =>
        simp only [houtcome] at hkept
        rw [wrapped_freed hi ho hkept]
        rfl

theorem relation?_completion {w : World V} (hw : w.Linked) {i : Id} (hi : i < w.objects.size)
    {op : Op V} (hop : w.Overlooks i op) (hkept : (w.completion op).world.alive i = true) :
    (w.completion op).world.relation? i = w.relation? i := by
  cases op with
  | act a => exact relation?_act hw hop hi hkept
  | set | notify => exact hop.elim
  | wrap name as convert =>
    simp only [completion] at hkept ⊢
    split at hkept
    · rfl
    · split at hkept
      · rfl
      · next hname _ events v houtcome =>
        rw [relation?_wrapped hi hkept]

end World

namespace State

/-- The state after a completion. -/
def completed (s : State V) (op : Op V) : State V :=
  ⟨(s.world.completion op).world, s.log ++ (s.world.completion op).events⟩

theorem performs_act {s : State V} {a : Action V} {e : Effect V} (hact : s.world.act [] a = e) :
    s.Performs (.act a) ⟨e.world, s.log ++ e.traces.map .trace⟩ e.reply := by
  subst hact
  exact perform?_of_leads (.of_step rfl)

theorem leads_wrap {s : State V} {name as : String} {convert : V → Script V .converter}
    (hconvert : ∀ v, (convert v).IsPassive) :
    Config.Leads (Config.start s (.wrap name as convert))
      ⟨s.completed (.wrap name as convert),
        .reply (s.world.completion (.wrap name as convert)).reply .idle⟩ := by
  have hstep : (Config.start s (.wrap name as convert)).step =
      some (s.operate .idle (.wrap name as convert)) := rfl
  cases hname : s.world.find? name Handle.observable? with
  | none =>
    simp only [operate, hname] at hstep
    simpa [completed, World.completion, hname] using Config.Leads.of_step hstep
  | some source =>
    cases hvalue : s.world.value? source with
    | none =>
      simp only [operate, hname, hvalue] at hstep
      simpa [completed, World.completion, hname, hvalue] using Config.Leads.of_step hstep
    | some v =>
      simp only [operate, hname, hvalue] at hstep
      obtain ⟨⟨events, x⟩, houtcome⟩ := Option.isSome_iff_exists.1 (hconvert v)
      have hanswer := Script.leads_of_outcome? houtcome s (.wrapping source as convert .idle)
      have hwrap : Config.step ⟨{ s with log := s.log ++ events },
          .run (@Script.stop V .converter x) (.wrapping source as convert .idle)⟩ =
            some ⟨⟨s.world.wrapped source as convert x,
              s.log ++ events ++ [.trace (.wrapped s.world.objects.size source)]⟩,
              .reply (.done .unit) .idle⟩ := rfl
      simp only [completed, World.completion, hname, hvalue, Option.bind_some, houtcome,
        ← List.append_assoc]
      exact (Config.Leads.of_step hstep).trans (hanswer.trans (.of_step hwrap))

/-- An operation that overlooks a property ends, in what it comes to. -/
theorem leads_completed {s : State V} {i : Id} {op : Op V} (hop : s.world.Overlooks i op) :
    Config.Leads (Config.start s op)
      ⟨s.completed op, .reply (s.world.completion op).reply .idle⟩ := by
  cases op with
  | act a => exact .of_step rfl
  | set | notify => exact hop.elim
  | wrap name as convert => exact leads_wrap hop

/-! ## Sequences of operations -/

/-- An operation ends in one way only. -/
theorem Performs.unique {s t u : State V} {op : Op V} {r q : Reply V} (ht : s.Performs op t r)
    (hu : s.Performs op u q) : t = u ∧ r = q := by
  obtain ⟨m, hm⟩ := ht
  obtain ⟨n, hn⟩ := hu
  have hm' := perform?_mono (Nat.le_max_left m n) hm
  have hn' := perform?_mono (Nat.le_max_right m n) hn
  rw [hm'] at hn'
  cases hn'
  exact ⟨rfl, rfl⟩

/-- Operations are performed from outside, one after the other, each in the state that the one before
it left. -/
inductive PerformsAll : State V → List (Op V) → State V → List (Reply V) → Prop
  | nil (s : State V) : PerformsAll s [] s []
  | cons {s t u : State V} {op : Op V} {ops : List (Op V)} {r : Reply V} {rs : List (Reply V)}
    (hfirst : s.Performs op t r) (hrest : PerformsAll t ops u rs) :
    PerformsAll s (op :: ops) u (r :: rs)

/-- Performed one after the other, the operations overlook the property, which outlives each of
them. -/
def Spares (i : Id) : State V → List (Op V) → Prop
  | _, [] => True
  | s, op :: ops => s.world.Overlooks i op ∧
      ∀ t r, s.Performs op t r → t.world.alive i = true ∧ Spares i t ops

theorem Spares.of_performs {i : Id} {s t : State V} {op : Op V} {ops : List (Op V)} {r : Reply V}
    (hop : s.world.Overlooks i op) (hfirst : s.Performs op t r) (halive : t.world.alive i = true)
    (hrest : t.Spares i ops) : s.Spares i (op :: ops) := by
  refine ⟨hop, fun u q hu => ?_⟩
  obtain ⟨rfl, _⟩ := hfirst.unique hu
  exact ⟨halive, hrest⟩

end State

/-! ## Binding, other operations, and releasing -/

namespace Config

/-- Nothing is in progress, and the property is bound to `o`. -/
structure BoundTo (s : State V) (i o : Id) : Prop where
  reachable : ∃ r, Reachable ⟨s, .reply r .idle⟩
  relation : s.world.relation? i = some (o, .bound i)

theorem Reachable.performs {c : Config V} (hc : c.Reachable) (hreply : c.reply?.isSome = true)
    {op : Op V} {t : State V} {r : Reply V} (hop : c.state.Performs op t r) :
    Reachable ⟨t, .reply r .idle⟩ := by
  obtain ⟨n, hn⟩ := hop
  exact hc.perform? hreply hn

/-- Operations that overlook a property do the same whether or not it is bound to `o`. -/
theorem BoundTo.spared {s s' : State V} {i o : Id} (hs' : BoundTo s' i o)
    (hworld : s.world = s'.world.freed i o) {ops : List (Op V)} (hops : s.Spares i ops) :
    ∃ t t' replies events, s.PerformsAll ops t replies ∧ s'.PerformsAll ops t' replies ∧
      BoundTo t' i o ∧ t.world = t'.world.freed i o ∧ t.log = s.log ++ events ∧
      t'.log = s'.log ++ events := by
  induction ops generalizing s s' with
  | nil => exact ⟨s, s', [], [], .nil s, .nil s', hs', hworld, by simp, by simp⟩
  | cons op ops ih =>
    obtain ⟨hop, hrest⟩ := hops
    obtain ⟨⟨r, hreachable⟩, hrelation⟩ := hs'
    have hlinked := hreachable.sound.world.linked
    have hi := World.lt_size_of_alive (World.alive_of_relation? hrelation)
    have ho := (hlinked.source _ _ _ hrelation).1
    have hop' : s'.world.Overlooks i op := by
      rw [hworld] at hop
      exact hop
    have hfirst := State.perform?_of_leads (State.leads_completed hop)
    have hfirst' := State.perform?_of_leads (State.leads_completed hop')
    obtain ⟨halive, hspared⟩ := hrest _ _ hfirst
    have hcompletion : s.world.completion op = (s'.world.completion op).freed i o := by
      rw [hworld]
      apply World.completion_freed hi ho hop'
      rw [← hworld]
      exact halive
    have halive' : (s'.world.completion op).world.alive i = true := by
      have h : (s.world.completion op).world.alive i = true := halive
      rw [hcompletion] at h
      exact (World.alive_freed ..).symm.trans h
    have hbound : BoundTo (s'.completed op) i o := by
      refine ⟨⟨_, hreachable.performs rfl hfirst'⟩, ?_⟩
      exact (World.relation?_completion hlinked hi hop' halive').trans hrelation
    have hworld' : (s.completed op).world = (s'.completed op).world.freed i o :=
      congrArg Completion.world hcompletion
    obtain ⟨t, t', replies, events, hall, hall', hlast, hsame, hlog, hlog'⟩ :=
      ih hbound hworld' hspared
    have hreply : (s.world.completion op).reply = (s'.world.completion op).reply := by
      rw [hcompletion]
      rfl
    have hevents : (s.world.completion op).events = (s'.world.completion op).events := by
      rw [hcompletion]
      rfl
    refine ⟨t, t', _ :: replies, (s.world.completion op).events ++ events, .cons hfirst hall, ?_,
      hlast, hsame, ?_, ?_⟩
    · rw [hreply]
      exact .cons hfirst' hall'
    · rw [hlog, State.completed, List.append_assoc]
    · rw [hlog', State.completed, hevents, List.append_assoc]

/-- From `s`, the property `i` is bound to `o`, some operations are performed, and `i` is released;
or the operations are performed alone, from `s` to `t`. Binding leads to `b` and from there the
operations lead to `u`. -/
structure Cancelling (s b t u : State V) (name target : String) (i o : Id) (ops : List (Op V)) :
    Prop where
  bind : s.Performs (.act (.bind name target)) b (.done .unit)
  /-- Each operation has the same reply and the same events in both cases. -/
  operations : ∃ replies events,
    s.PerformsAll ops t replies ∧ t.log = s.log ++ events ∧
    b.PerformsAll ops u replies ∧ u.log = b.log ++ events
  /-- Through whatever name, releasing succeeds and leaves what the operations alone lead to. -/
  unbind : ∀ n, u.world.find? n Handle.property? = some i →
    ∃ x, u.Performs (.act (.unbind n)) x (.done .unit) ∧ x.world = t.world

/-- In any state with nothing in progress, let a free property be bound to another observable and be
released again after operations that overlook it and that it outlives. -/
theorem Run.bind_unbind {allowed : Op V → Prop} {past : List (Config V)} {c : Config V}
    (hrun : Run allowed past c) (hreply : c.reply?.isSome = true) {name target : String} {i o : Id}
    (hname : c.state.world.find? name Handle.property? = some i)
    (htarget : c.state.world.find? target Handle.observable? = some o) (hne : i ≠ o)
    (hfree : c.state.world.isBound i = false) {ops : List (Op V)} (hops : c.state.Spares i ops) :
    ∃ b t u, Cancelling c.state b t u name target i o ops := by
  have hsound := hrun.sound.world
  obtain ⟨p, hp⟩ := World.shape?_eq_property_iff.1 (hsound.shape?_of_property hname)
  have hsource : p.source = none := by
    simpa [World.isBound, hp] using hfree
  have hbind := State.performs_act
    ((World.act_bind [] hname htarget).trans (World.bind_free hp hne hsource))
  have hp' : (c.state.world.register o (.bound i)).property? i = some p := by
    rw [World.property?_eq_body?, World.body?_register, ← World.property?_eq_body?, hp]
  have hbound : BoundTo ⟨(c.state.world.register o (.bound i)).follow i (some o),
      c.state.log ++ [.trace (.bound i o)]⟩ i o := by
    refine ⟨⟨_, hrun.reachable.performs hreply hbind⟩, ?_⟩
    rw [World.relation?_follow hp', if_pos rfl]
    rfl
  obtain ⟨t, u, replies, events, hall, hall', ⟨⟨r, hreachable⟩, hrelation⟩, hworld, hlog, hlog'⟩ :=
    hbound.spared (World.freed_bind hsound.linked hp hsource).symm hops
  refine ⟨_, t, u, hbind, ⟨replies, events, hall, hlog, hall', hlog'⟩, ?_⟩
  intro n hn
  have hlast := hreachable.sound.world
  obtain ⟨q, hq⟩ := World.shape?_eq_property_iff.1 (hlast.shape?_of_property hn)
  have hunbind := State.performs_act ((World.act_unbind [] hn).trans
    (World.unbind_bound hlast.linked hq (World.source_of_property? hq hrelation)))
  exact ⟨_, hunbind, hworld.symm⟩

/-- The source gets a listener and another follower, the property gets a binding, and then the
source dies. -/
theorem bind_unbind_orphan : ∃ (past : List (Config Nat)) (c : Config Nat),
    Run (fun _ => True) past c ∧
      ∃ b t u, Cancelling c.state b t u "p" "o" 0 1 [.act (.add "o" "l"), .act (.bind "q" "o"),
        .wrap "p" "b" (fun v => .stop (v + 1)), .act (.drop "o")] := by
  have hp : Run (fun _ => True) _
      (start {} (.act (.property "p" 0 (fun v => .stop (.ok v)) none))) := .start trivial
  have ho : Run (fun _ => True) _
      (start _ (.act (.property "o" 0 (fun v => .stop (.ok v)) none))) :=
    (hp.step rfl).perform rfl trivial
  have hq : Run (fun _ => True) _
      (start _ (.act (.property "q" 0 (fun v => .stop (.ok v)) none))) :=
    (ho.step rfl).perform rfl trivial
  have hchannel : Run (fun _ => True) _ (start _ (.act (.channel "l" "r"))) :=
    (hq.step rfl).perform rfl trivial
  have hlast := hchannel.step rfl
  refine ⟨_, _, hlast, hlast.bind_unbind rfl rfl rfl (by decide) rfl ?_⟩
  refine .of_performs trivial ⟨1, rfl⟩ rfl ?_
  refine .of_performs (fun h : some 2 = some 0 => by cases h) ⟨1, rfl⟩ rfl ?_
  refine .of_performs (fun _ => rfl) ⟨2, rfl⟩ rfl ?_
  exact .of_performs trivial ⟨1, rfl⟩ rfl trivial

end Config

end Observable
