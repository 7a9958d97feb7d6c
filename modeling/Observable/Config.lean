import Observable.Stack

/-!
# Running an operation step by step

A configuration is a world, the events so far, and what is going on. `Config.step` takes the next
step; it is a total function without fuel, and the only configurations without a next step are
those in which the operation performed from outside has its reply (`Config.step_eq_none_iff`).

The rules, in the order in which an update meets them:

* a validator runs first, and a rejected value is not written;
* a value that equals the stored one is not written either, and the stored one stays as it is;
* otherwise the value is stored, and in the same step a round over the listeners begins;
* a round calls the registrations that were there when it began, in order, until one fails;
* a bound property updates itself with the new value, a binding stores the converted value whether
  or not it differs; neither does anything once it is dead;
* a failed update is told to the property's reporter before its failure is returned.
-/

namespace Observable

/-- A world and the events so far, oldest first. -/
structure State (V : Type) where
  world : World V := {}
  log : List (Event V) := []

/-- What is going on. -/
inductive Focus (V : Type) : Type
  /-- An operation is to be performed. -/
  | operate (op : Op V) (below : Stack V .reply)
  /-- An operation has its reply. -/
  | reply (r : Reply V) (below : Stack V .reply)
  /-- A callback runs. -/
  | run {ρ : Role} (script : Script V ρ) (below : Stack V (.answer ρ))
  /-- A round is about to call the next of its registrations. -/
  | round (rest : List Registration) (observed : Id) (old new : V) (below : Stack V .round)
  /-- The call of one registration has ended. -/
  | called (r : Except Error Unit) (below : Stack V .call)
  /-- A round has ended. -/
  | rounded (r : Except Error Unit) (below : Stack V .round)
  /-- The update of a property has ended. -/
  | updated (r : Except Error V) (below : Stack V .update)

/-- A state together with what is going on in it. -/
structure Config (V : Type) where
  state : State V
  focus : Focus V

namespace State

variable {V : Type}

/-- Appends an event. -/
def emit (s : State V) (e : Event V) : State V := { s with log := s.log ++ [e] }

/-- Ends one hold on an object, while the frames of a stack keep theirs. -/
def release {a : Awaits} (s : State V) (below : Stack V a) (i : Id) : State V :=
  { s with world := s.world.release below.holds i }

/-! ## Rounds and updates -/

/-- Begins a round over the listeners of the object for which the innermost frame announces a
change. -/
def announce (s : State V) (observed : Id) (old new : V) (below : Stack V .round) : Config V :=
  let rest := s.world.registrations below.owner
  ⟨s.emit (.trace (.notifying below.owner rest.length)), .round rest observed old new below⟩

/-- Begins the update of the property that the innermost frame waits for. -/
def update (s : State V) (p : Property V) (v : V) (below : Stack V .update) : Config V :=
  ⟨s, .run (p.validate v) (.validating below.updated below)⟩

/-- Ends an update with a failure, of which the property's reporter learns first. -/
def fail (s : State V) (e : Error) (below : Stack V .update) : Config V :=
  match (s.world.property? below.updated).bind (·.report) with
  | none => ⟨s, .updated (.error e) below⟩
  | some report => ⟨s, .run (report e) (.reporting below.updated e below)⟩

/-- Compares a validated value with the stored one, and stores and announces it if they differ. -/
def commit [BEq V] (s : State V) (v : V) (below : Stack V .update) : Config V :=
  match s.world.value? below.updated with
  | none => ⟨s, .updated (.ok v) below⟩
  | some old =>
    if old == v then ⟨s, .updated (.ok old) below⟩
    else
      { s with world := s.world.store below.updated v }.announce below.updated old v
        (.updating below.updated old below)

/-- Stores and announces the converted value of a binding. -/
def recompute (s : State V) (i : Id) (v : V) (below : Stack V .call) : Config V :=
  match s.world.value? i with
  | none => ⟨s.release below i, .called (.ok ()) below⟩
  | some old => { s with world := s.world.store i v }.announce i old v (.recomputing i below)

/-- Makes a binding whose first value has been converted. -/
def wrap (s : State V) (source : Id) (name : String) (convert : V → Script V .converter) (v : V)
    (below : Stack V .reply) : Config V :=
  let i := s.world.objects.size
  let w := (s.world.register source (.derived i)).create (.binding ⟨v, convert, source⟩)
  let w := w.assign (source :: below.holds) name (.binding i)
  ⟨({ s with world := w }.emit (.trace (.wrapped i source))).release below source,
    .reply (.done .unit) below⟩

/-! ## Steps -/

/-- Calls one registration of a round. -/
def call (s : State V) (r : Registration) (observed : Id) (old new : V) (below : Stack V .call) :
    Config V :=
  match r with
  | .listener l =>
    match s.world.listeners.get? l with
    | none => ⟨s, .called (.ok ()) below⟩
    | some (.channel _ _) =>
      ⟨{ s with world := s.world.alterListener l (Listener.send ⟨old, new⟩) },
        .called (.ok ()) below⟩
    | some (.callback calls body) =>
      let current := (s.world.value? observed).getD new
      ⟨{ s with world := s.world.alterListener l Listener.counted },
        .run (body ⟨calls, observed, current, old, new⟩) (.listening below)⟩
  | .bound i =>
    match s.world.property? i with
    | none => ⟨s, .called (.ok ()) below⟩
    | some p => s.update p new (.following i below)
  | .derived i =>
    match s.world.binding? i with
    | none => ⟨s, .called (.ok ()) below⟩
    | some b => ⟨s, .run (b.convert new) (.converting i below)⟩

/-- Begins an operation. -/
def operate [BEq V] (s : State V) (below : Stack V .reply) : Op V → Config V
  | .act action =>
    let e := s.world.act below.holds action
    ⟨⟨e.world, s.log ++ e.traces.map .trace⟩, .reply e.reply below⟩
  | .set name v =>
    match s.world.find? name Handle.property? with
    | none => ⟨s, .reply .unknownName below⟩
    | some i =>
      match s.world.property? i with
      | none => ⟨s, .reply .unknownName below⟩
      | some p =>
        if p.source.isSome then ⟨s, .reply (.failed .boundWrite) below⟩
        else s.update p v (.setting i below)
  | .notify name observed old new =>
    match s.world.find? name Handle.set? with
    | none => ⟨s, .reply .unknownName below⟩
    | some i =>
      match s.world.find? observed Handle.observable? with
      | none => ⟨s, .reply .unknownName below⟩
      | some j => s.announce j old new (.notifying i j below)
  | .wrap name as convert =>
    match s.world.find? name Handle.observable? with
    | none => ⟨s, .reply .unknownName below⟩
    | some i =>
      match s.world.value? i with
      | none => ⟨s, .reply .unknownName below⟩
      | some v => ⟨s, .run (convert v) (.wrapping i as convert below)⟩

/-- Gives the answer of a callback to the frame that called it. -/
def answer [BEq V] (s : State V) : {ρ : Role} → Stack V (.answer ρ) → Answer V ρ → Config V
  | _, .validating _ below, .ok v => s.commit v below
  | _, .validating _ below, .error c => s.fail (c.during .validation) below
  | _, .reporting _ e below, _ => ⟨s, .updated (.error e) below⟩
  | _, .converting i below, v => s.recompute i v below
  | _, .wrapping i name convert below, v => s.wrap i name convert v below
  | _, .listening below, .ok _ => ⟨s, .called (.ok ()) below⟩
  | _, .listening below, .error c => ⟨s, .called (.error (c.during .listener)) below⟩

/-- Takes one step of a callback. -/
def run [BEq V] {ρ : Role} (s : State V) (below : Stack V (.answer ρ)) : Script V ρ → Config V
  | .stop a => s.answer below a
  | .emit e rest => ⟨s.emit e, .run rest below⟩
  | .perform op next => ⟨s, .operate op (.script next below)⟩

/-- Goes on after the call of a registration. -/
def afterCall (s : State V) (r : Except Error Unit) : Stack V .call → Config V
  | .round rest observed old new below =>
    match r with
    | .ok _ => ⟨s, .round rest observed old new below⟩
    | .error e => ⟨s, .rounded (.error e) below⟩

/-- Goes on after a round. -/
def afterRound (s : State V) (r : Except Error Unit) : Stack V .round → Config V
  | .notifying i j below =>
    ⟨(s.release below i).release below j,
      .reply (match r with | .ok _ => .done .unit | .error e => .failed e) below⟩
  | .updating _ old below =>
    match r with
    | .ok _ => ⟨s, .updated (.ok old) below⟩
    | .error e => s.fail e below
  | .recomputing i below => ⟨s.release below i, .called r below⟩

/-- Goes on after the update of a property. -/
def afterUpdate (s : State V) (r : Except Error V) : Stack V .update → Config V
  | .setting i below =>
    ⟨s.release below i,
      .reply (match r with | .ok old => .done (.value old) | .error e => .failed e) below⟩
  | .following i below =>
    ⟨s.release below i,
      .called (match r with | .ok _ => .ok () | .error e => .error e) below⟩

end State

namespace Config

variable {V : Type}

/-- The configuration in which an operation is performed from outside. -/
def start (s : State V) (op : Op V) : Config V := ⟨s, .operate op .idle⟩

/-- The next configuration; none if the operation performed from outside has its reply. -/
def step [BEq V] (c : Config V) : Option (Config V) :=
  match c.focus with
  | .operate op below => some (c.state.operate below op)
  | .reply _ .idle => none
  | .reply r (.script next below) => some ⟨c.state, .run (next r) below⟩
  | .run script below => some (c.state.run below script)
  | .round [] _ _ _ below => some ⟨c.state, .rounded (.ok ()) below⟩
  | .round (r :: rest) observed old new below =>
    some (c.state.call r observed old new (.round rest observed old new below))
  | .called r below => some (c.state.afterCall r below)
  | .rounded r below => some (c.state.afterRound r below)
  | .updated r below => some (c.state.afterUpdate r below)

/-- The reply to the operation performed from outside, once there is one. -/
def reply? (c : Config V) : Option (Reply V) :=
  match c.focus with
  | .reply r .idle => some r
  | _ => none

theorem reply?_eq_some_iff {c : Config V} {r : Reply V} :
    c.reply? = some r ↔ c.focus = .reply r .idle := by
  obtain ⟨s, f⟩ := c
  cases f with
  | reply r below => cases below <;> simp [reply?]
  | _ => simp [reply?]

theorem isSome_reply?_iff {c : Config V} :
    c.reply?.isSome = true ↔ ∃ r, c.focus = .reply r .idle := by
  rw [Option.isSome_iff_exists]
  constructor
  · rintro ⟨r, hr⟩
    exact ⟨r, reply?_eq_some_iff.1 hr⟩
  · rintro ⟨r, hr⟩
    exact ⟨r, reply?_eq_some_iff.2 hr⟩

/-- A run stops exactly when the operation performed from outside has its reply. -/
theorem step_eq_none_iff [BEq V] (c : Config V) : c.step = none ↔ c.reply?.isSome = true := by
  obtain ⟨s, f⟩ := c
  cases f with
  | reply r below => cases below <;> simp [step, reply?]
  | round rest observed old new below => cases rest <;> simp [step, reply?]
  | _ => simp [step, reply?]

end Config

end Observable
