import Observable.Passive

/-!
# Propagation as a walk

Where every callback is passive, a change spreads over the objects downstream of the one it began
at, and nothing else can interfere. `State.spread` is that walk: it calls the registrations of an
object in order, goes down into a bound property if its value changes, goes down into every
binding, and stops at the first failure on any level. `State.walk` is a whole update that begins at
one property.

The walk reads the registration lists once, before it begins, and recurs along them. It is total by
well-founded recursion wherever these lists have no infinite path from the object at which it
begins, and it has no fuel.
-/

namespace Observable

variable {V : Type}

/-- Under the given registration lists, a change of `i` is passed on to `j`. -/
def Feeds (lists : Id → List Registration) (j i : Id) : Prop :=
  ∃ r ∈ lists i, r.target? = some j

/-- Objects from which no infinite path leads along the registrations, ordered by how a change is
passed on. -/
instance (lists : Id → List Registration) :
    WellFoundedRelation { i : Id // Acc (Feeds lists) i } where
  rel j i := Feeds lists j.1 i.1
  wf := ⟨fun ⟨_, h⟩ => by
    induction h with
    | intro i _ ih => exact ⟨_, fun ⟨j, _⟩ hji => ih j hji⟩⟩

namespace State

/-! ## Passive callbacks -/

/-- Runs a passive callback to its answer; none if it is not passive. -/
def settle {ρ : Role} (s : State V) (script : Script V ρ) : State V × Option (Answer V ρ) :=
  match script.outcome? with
  | none => (s, none)
  | some (events, a) => ({ s with log := s.log ++ events }, some a)

/-- Calls a listener for a change of `i` to its present value. -/
def tell (s : State V) (l : ListenerId) (i : Id) (old new : V) : State V × Except Error Unit :=
  match s.world.listeners.get? l with
  | none => (s, .ok ())
  | some (.channel _ _) =>
    ({ s with world := s.world.alterListener l (Listener.send ⟨old, new⟩) }, .ok ())
  | some (.callback calls body) =>
    let s : State V := { s with world := s.world.alterListener l Listener.counted }
    match s.settle (body ⟨calls, i, new, old, new⟩) with
    | (s, some (.error c)) => (s, .error (c.during .listener))
    | (s, _) => (s, .ok ())

/-- Tells a property's reporter of a failed update. -/
def report (s : State V) (p : Property V) (e : Error) : State V × Except Error V :=
  match p.report with
  | none => (s, .error e)
  | some report => ((s.settle (report e)).1, .error e)

/-! ## The walk -/

/-- Calls in order until one fails. -/
def untilFailure {α : Type} (call : State V → α → State V × Except Error Unit) :
    State V → List α → State V × Except Error Unit
  | s, [] => (s, .ok ())
  | s, a :: as =>
    match call s a with
    | (s, .ok _) => untilFailure call s as
    | (s, .error e) => (s, .error e)

/-- Updates a property, where `spread` passes a change of it on. -/
def updateBy [BEq V] (spread : State V → V → V → State V × Except Error Unit) (s : State V)
    (i : Id) (v : V) : State V × Except Error V :=
  match s.world.property? i with
  | none => (s, .ok v)
  | some p =>
    match s.settle (p.validate v) with
    | (s, none) => (s, .ok v)
    | (s, some (.error c)) => s.report p (c.during .validation)
    | (s, some (.ok w)) =>
      if p.value == w then (s, .ok p.value)
      else
        match spread { s with world := s.world.store i w } p.value w with
        | (s, .ok _) => (s, .ok p.value)
        | (s, .error e) => s.report p e

/-- Passes a change of `i` on to everything downstream of it. -/
def spread [BEq V] (lists : Id → List Registration) (i : Id) (h : Acc (Feeds lists) i)
    (s : State V) (old new : V) : State V × Except Error Unit :=
  untilFailure
    (fun s r =>
      match r with
      | ⟨.listener l, _⟩ => s.tell l i old new
      | ⟨.bound j, hr⟩ =>
        have hj : Feeds lists j i := ⟨_, hr, rfl⟩
        match s.updateBy (spread lists j (h.inv hj)) j new with
        | (s, .ok _) => (s, .ok ())
        | (s, .error e) => (s, .error e)
      | ⟨.derived j, hr⟩ =>
        have hj : Feeds lists j i := ⟨_, hr, rfl⟩
        match s.world.binding? j with
        | none => (s, .ok ())
        | some b =>
          match s.settle (b.convert new) with
          | (s, none) => (s, .ok ())
          | (s, some v) =>
            spread lists j (h.inv hj) { s with world := s.world.store j v } b.value v)
    (s.emit (.trace (.notifying i (lists i).length))) (lists i).attach
termination_by (⟨i, h⟩ : { i : Id // Acc (Feeds lists) i })

/-- Updates a property and everything downstream of it. -/
def walk [BEq V] (s : State V) (i : Id) (h : Acc (Feeds s.world.registrations) i) (v : V) :
    State V × Except Error V :=
  s.updateBy (spread s.world.registrations i h) i v

end State

end Observable
