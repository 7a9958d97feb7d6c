import Observable.Proofs.Shape

/-!
# What an action can do to the world

Most actions only read. `World.Edit` lists what the others do, each with the conditions under which
it does it, so that a property of the world is shown to be kept by every action with one case for
each kind of edit (`World.edit_act`). Which listeners are added and removed on behalf of a user is
told apart from the registrations of bound properties and bindings (`World.addition?`,
`World.removal?`).
-/

namespace Observable

variable {V : Type}

namespace World

/-- The listener that an action adds, and where. -/
def addition? (w : World V) : Action V → Option (Id × ListenerId)
  | .add name listener =>
    (w.find? name Handle.listened?).bind fun i =>
      (w.find? listener Handle.listener?).map fun l => (i, l)
  | _ => none

/-- The listener that an action removes successfully, and where. -/
def removal? (w : World V) : Action V → Option (Id × ListenerId)
  | .remove name listener =>
    (w.find? name Handle.numbered?).bind fun i =>
      (w.find? listener Handle.listener?).bind fun l =>
        if (w.remove i (.listener l)).reply.error?.isNone then some (i, l) else none
  | _ => none

/-- What an action may make of the world. -/
inductive Edit (w : World V) (held : List Id) : Action V → World V → Prop
  /-- The action reads, or it fails. -/
  | read {a : Action V} (hadd : w.addition? a = none) (hremove : w.removal? a = none) :
    Edit w held a w
  | property (name : String) (value : V) (validate : V → Script V .validator)
      (report : Option (Error → Script V .reporter)) :
    Edit w held (.property name value validate report)
      ((w.create (.property ⟨value, validate, report, none⟩)).assign held name
        (.property w.objects.size))
  | listenerSet (name : String) :
    Edit w held (.listenerSet name)
      ((w.create .bare).assign held name (.set w.objects.size))
  | listener (name : String) (body : Call V → Script V .listener) :
    Edit w held (.listener name body)
      ((w.createListener (.callback 0 body)).assign held name (.listener w.listeners.size))
  | channel (name receiver : String) :
    Edit w held (.channel name receiver)
      (((w.createListener (.channel [] 0)).assign held name (.listener w.listeners.size)).assign
        held receiver (.receiver w.listeners.size))
  | view {name : String} {i : Id} (hname : w.find? name Handle.readable? = some i) (as : String) :
    Edit w held (.view name as) (w.assign held as (.view i))
  | copy {name : String} {h : Handle} (hname : w.names.find? name = some h) (as : String) :
    Edit w held (.copy name as) (w.assign held as h)
  | weak {name : String} {i : Id} (hname : w.find? name Handle.listened? = some i) (as : String) :
    Edit w held (.weak name as) (w.assign held as (.weak i))
  | drop (name : String) : Edit w held (.drop name) (w.forget held name)
  | bind {name target : String} {i source : Id} {p : Property V}
      (hname : w.find? name Handle.property? = some i)
      (htarget : w.find? target Handle.observable? = some source)
      (hp : w.property? i = some p) (hfree : p.source = none) (hne : i ≠ source) :
    Edit w held (.bind name target) ((w.register source (.bound i)).follow i (some source))
  | unbind {name : String} {i source : Id} {p : Property V}
      (hname : w.find? name Handle.property? = some i)
      (hp : w.property? i = some p) (hbound : p.source = some source) :
    Edit w held (.unbind name) ((w.follow i none).unregister source (.bound i))
  | add {a : Action V} {i : Id} {l : ListenerId} (hadd : w.addition? a = some (i, l)) :
    Edit w held a (w.register i (.listener l))
  | remove {a : Action V} {i : Id} {l : ListenerId} (hremove : w.removal? a = some (i, l)) :
    Edit w held a (w.unregister i (.listener l))
  | drain (receiver : String) (asText : Bool) (l : ListenerId) :
    Edit w held (.drain receiver asText) (w.alterListener l Listener.drain)

/-! ## Looking up names -/

theorem world_withName {α : Type} {w : World V} {name : String} {select : Handle → Option α}
    {go : α → Effect V} (hgo : ∀ a, (go a).world = w) :
    (w.withName name select go).world = w := by
  unfold withName
  split
  · rfl
  · exact hgo _

theorem world_withLive {α : Type} {w : World V} {found : Option α} {go : α → Effect V}
    (hgo : ∀ a, (go a).world = w) : (w.withLive found go).world = w := by
  unfold withLive
  split
  · rfl
  · exact hgo _

theorem names_find?_of_find? {α : Type} {w : World V} {name : String} {select : Handle → Option α}
    {a : α} (hname : w.find? name select = some a) :
    ∃ h, w.names.find? name = some h ∧ select h = some a :=
  Option.bind_eq_some_iff.1 hname

/-! ## One lemma for each rule -/

/-- An action that adds and removes no listener, and leaves the world alone, only reads. -/
theorem Edit.of_world_eq {w w' : World V} {held : List Id} {a : Action V}
    (hadd : w.addition? a = none) (hremove : w.removal? a = none) (hworld : w' = w) :
    Edit w held a w' := by
  rw [hworld]
  exact .read hadd hremove

theorem edit_bind [BEq V] (w : World V) (held : List Id) (name target : String) :
    Edit w held (.bind name target) (w.act held (.bind name target)).world := by
  simp only [act, withName]
  cases hname : w.find? name Handle.property? with
  | none => exact .read rfl rfl
  | some i =>
    cases htarget : w.find? target Handle.observable? with
    | none => exact .read rfl rfl
    | some source =>
      simp only [World.bind, withLive]
      cases hp : w.property? i with
      | none => exact .read rfl rfl
      | some p =>
        simp only
        by_cases hself : i = source
        · rw [if_pos hself]
          exact .read rfl rfl
        · rw [if_neg hself]
          cases hfree : p.source with
          | some _ => exact .read rfl rfl
          | none => exact .bind hname htarget hp hfree hself

/-- Removing what a list may lack leaves the same world as removing it quietly. -/
theorem world_remove (w : World V) (i : Id) (r : Registration) :
    (w.remove i r).world = w.unregister i r := by
  unfold remove
  split
  · next hmissing =>
    have hnot : r ∉ w.registrations i := by
      intro hr
      simp [hr] at hmissing
    exact (unregister_of_not_mem hnot).symm
  · rfl

theorem edit_unbind [BEq V] (w : World V) (held : List Id) (name : String) :
    Edit w held (.unbind name) (w.act held (.unbind name)).world := by
  simp only [act, withName]
  cases hname : w.find? name Handle.property? with
  | none => exact .read rfl rfl
  | some i =>
    simp only [World.unbind, withLive]
    cases hp : w.property? i with
    | none => exact .read rfl rfl
    | some p =>
      simp only
      cases hsource : p.source with
      | none => exact .read rfl rfl
      | some source =>
        simp only [world_remove]
        exact .unbind hname hp hsource

theorem edit_add [BEq V] (w : World V) (held : List Id) (name listener : String) :
    Edit w held (.add name listener) (w.act held (.add name listener)).world := by
  simp only [act, withName]
  cases hname : w.find? name Handle.listened? with
  | none => exact .read (by simp [addition?, hname]) rfl
  | some i =>
    cases hlistener : w.find? listener Handle.listener? with
    | none => exact .read (by simp [addition?, hlistener]) rfl
    | some l => exact .add (by simp [addition?, hname, hlistener])

theorem edit_remove [BEq V] (w : World V) (held : List Id) (name listener : String) :
    Edit w held (.remove name listener) (w.act held (.remove name listener)).world := by
  simp only [act, withName]
  cases hname : w.find? name Handle.numbered? with
  | none => exact .read rfl (by simp [removal?, hname])
  | some i =>
    cases hlistener : w.find? listener Handle.listener? with
    | none => exact .read rfl (by simp [removal?, hlistener])
    | some l =>
      simp only [world_remove]
      cases herror : (w.remove i (.listener l)).reply.error? with
      | none => exact .remove (by simp [removal?, hname, hlistener, herror])
      | some e =>
        -- A failing removal leaves the list alone, so it counts as a read.
        apply Edit.of_world_eq rfl (by simp [removal?, hname, hlistener, herror])
        rw [← world_remove]
        unfold remove at herror ⊢
        split at herror
        · next hmissing =>
          rw [if_pos hmissing]
          rfl
        · cases herror

/-- Every action edits the world in one of the ways that `Edit` lists. -/
theorem edit_act [BEq V] (w : World V) (held : List Id) (a : Action V) :
    Edit w held a (w.act held a).world := by
  cases a with
  | property name value validate report => exact .property name value validate report
  | listenerSet name => exact .listenerSet name
  | listener name body => exact .listener name body
  | channel name receiver => exact .channel name receiver
  | view name as =>
    simp only [act, withName]
    cases hname : w.find? name Handle.readable? with
    | none => exact .read rfl rfl
    | some i => exact .view hname as
  | copy name as =>
    simp only [act, withName]
    cases hname : w.find? name some with
    | none => exact .read rfl rfl
    | some h =>
      obtain ⟨h', hfind, heq⟩ := names_find?_of_find? hname
      cases heq
      exact .copy hfind as
  | weak name as =>
    simp only [act, withName]
    cases hname : w.find? name Handle.listened? with
    | none => exact .read rfl rfl
    | some i => exact .weak hname as
  | drop name =>
    simp only [act, withName]
    cases w.find? name some with
    | none => exact .read rfl rfl
    | some h => exact .drop name
  | bind name target => exact edit_bind w held name target
  | unbind name => exact edit_unbind w held name
  | add name listener => exact edit_add w held name listener
  | remove name listener => exact edit_remove w held name listener
  | drain receiver asText =>
    simp only [act, withName]
    cases w.find? receiver Handle.receiver? with
    | none => exact .read rfl rfl
    | some l =>
      simp only [withLive]
      cases w.listeners.get? l with
      | none => exact .read rfl rfl
      | some queue => exact .drain receiver asText l
  | get name =>
    exact .of_world_eq rfl rfl (world_withName fun i => world_withLive fun v => rfl)
  | display name =>
    exact .of_world_eq rfl rfl (world_withName fun i => world_withLive fun v => rfl)
  | describe name =>
    exact .of_world_eq rfl rfl (world_withName fun h => world_withLive fun d => rfl)
  | isBound name => exact .of_world_eq rfl rfl (world_withName fun i => rfl)
  | contains name listener =>
    exact .of_world_eq rfl rfl (world_withName fun i => world_withName fun l => rfl)
  | count name => exact .of_world_eq rfl rfl (world_withName fun i => rfl)
  | isEmpty name => exact .of_world_eq rfl rfl (world_withName fun i => rfl)
  | id name => exact .of_world_eq rfl rfl (world_withName fun i => rfl)
  | sameId name other =>
    exact .of_world_eq rfl rfl (world_withName fun i => world_withName fun j => rfl)
  | sameListener name other =>
    exact .of_world_eq rfl rfl (world_withName fun l => world_withName fun m => rfl)
  | compare a b => exact .read rfl rfl
  | constant v => exact .read rfl rfl

/-! ## What is added and removed -/

/-- An edit that adds a listener does nothing else. -/
theorem Edit.eq_of_addition? {w w' : World V} {held : List Id} {a : Action V}
    (hedit : w.Edit held a w') {i : Id} {l : ListenerId} (hadd : w.addition? a = some (i, l)) :
    w' = w.register i (.listener l) := by
  cases hedit with
  | add hadd' =>
    rw [hadd'] at hadd
    cases hadd
    rfl
  | read hnone _ =>
    rw [hnone] at hadd
    cases hadd
  | remove hremove =>
    cases a with
    | add => cases hremove
    | _ => cases hadd
  | _ => cases hadd

/-- An edit that removes a listener does nothing else. -/
theorem Edit.eq_of_removal? {w w' : World V} {held : List Id} {a : Action V}
    (hedit : w.Edit held a w') {i : Id} {l : ListenerId} (hremove : w.removal? a = some (i, l)) :
    w' = w.unregister i (.listener l) := by
  cases hedit with
  | remove hremove' =>
    rw [hremove'] at hremove
    cases hremove
    rfl
  | read _ hnone =>
    rw [hnone] at hremove
    cases hremove
  | add hadd =>
    cases a with
    | add => cases hremove
    | _ => cases hadd
  | _ => cases hremove

/-- What is removed successfully from a live list was in it. -/
theorem mem_of_removal? {w : World V} {a : Action V} {i : Id} {l : ListenerId}
    (hremove : w.removal? a = some (i, l)) (halive : w.alive i = true) :
    Registration.listener l ∈ w.registrations i := by
  cases a with
  | remove name listener =>
    obtain ⟨j, _, hrest⟩ := Option.bind_eq_some_iff.1 hremove
    obtain ⟨m, _, hlast⟩ := Option.bind_eq_some_iff.1 hrest
    split at hlast
    · next hdone =>
      cases hlast
      apply Classical.byContradiction
      intro hnot
      have hmissing : (w.alive i && !(w.registrations i).contains (.listener l)) = true := by
        simp [halive, hnot]
      rw [remove, if_pos hmissing] at hdone
      cases hdone
    · cases hlast
  | _ => cases hremove

end World

end Observable
