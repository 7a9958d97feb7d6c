import Observable.Error

/-!
# Operations and callbacks

An operation may be given callbacks (a validator, a converter, a listener, a reporter), and a
callback may perform operations, which may be given callbacks in turn. A callback is described by
the `Script` it runs when it is called: emit an event, perform an operation and go on with its
reply, or stop with an answer. What an answer is depends on the callback's `Role`, so a converter
cannot fail and a reporter has nothing to say.

Operations that never run a callback are `Action`s; the three that may are the other constructors of
`Op`. Nothing here says what an operation does.
-/

namespace Observable

/-- The number of an observable or of a listener set. -/
abbrev Id := Nat

/-- The number of a listener. -/
abbrev ListenerId := Nat

/-- One change of an observed value. -/
structure Change (V : Type) where
  old : V
  new : V
  deriving BEq, DecidableEq, Repr

/-! ## Replies -/

/-- What an object looks like from outside; see `World.describe?`. -/
inductive Description (V : Type) where
  | property (value : V) (bound : Bool) (id : Id) (listeners : Nat)
  | binding (value : V) (id : Id) (listeners : Nat)
  | view (value : V) (bound : Bool) (id : Id) (listeners : Nat)
  | set (id : Id) (listeners : Nat)
  | listener
  deriving Repr

/-- What a successful operation returns. -/
inductive Payload (V : Type) where
  | unit
  | value (v : V)
  | flag (b : Bool)
  | count (n : Nat)
  | id (i : Id)
  /-- The value of an observable, to be shown as text. -/
  | text (v : V)
  | description (d : Description V)
  | changes (cs : List (Change V))
  /-- Changes, to be shown as text. -/
  | changeTexts (cs : List (Change V))
  deriving Repr

/-- The reply to an operation. -/
inductive Reply (V : Type) where
  | done (p : Payload V)
  | failed (e : Error)
  /-- A name of the operation denotes nothing that the operation works on. -/
  | unknownName
  deriving Repr

/-- The failure that a reply carries. -/
def Reply.error? {V : Type} : Reply V → Option Error
  | .failed e => some e
  | _ => none

/-! ## Events -/

/-- What the library itself announces while it works. -/
inductive Trace where
  | bound (property source : Id)
  | unbound (property source : Id)
  | notifying (set : Id) (listeners : Nat)
  | wrapped (binding source : Id)
  /-- The announcement of a reporter that only records failures. -/
  | updateFailed (error : Error)
  deriving DecidableEq, Repr

/-- What happens during an operation, as seen from outside. -/
inductive Event (V : Type) where
  /-- A listener was called for a change of an observable. -/
  | called (listener : String) (observed : Id) (current old new : V)
  /-- A callback made a note of a value. -/
  | noted (text : String) (value : V)
  /-- An operation performed by a callback has ended. -/
  | performed (operation : String) (reply : Reply V)
  /-- A reporter was told of a failed update. -/
  | reported (reporter : String) (error : Error)
  | trace (t : Trace)
  deriving Repr

/-! ## Callbacks -/

/-- The four kinds of callback. -/
inductive Role where
  | validator
  | converter
  | listener
  | reporter
  deriving DecidableEq, Repr

/-- What a callback answers when it stops. -/
def Answer (V : Type) : Role → Type
  | .validator => Except Cause V
  | .converter => V
  | .listener => Except Cause Unit
  | .reporter => Unit

/-- What a listener is told when it is called. -/
structure Call (V : Type) where
  /-- How often the listener was called before. -/
  earlier : Nat
  /-- The observable that changed. -/
  observed : Id
  /-- The value of that observable at the moment of the call. -/
  current : V
  old : V
  new : V

mutual

/-- The run of a callback of one role. -/
inductive Script (V : Type) : Role → Type
  | stop {ρ : Role} (answer : Answer V ρ) : Script V ρ
  | emit {ρ : Role} (event : Event V) (rest : Script V ρ) : Script V ρ
  | perform {ρ : Role} (op : Op V) (next : Reply V → Script V ρ) : Script V ρ

/-- The operations that end at once, without running a callback. -/
inductive Action (V : Type) : Type
  /-- Creates a free property. -/
  | property (name : String) (value : V) (validate : V → Script V .validator)
      (report : Option (Error → Script V .reporter))
  /-- Creates a listener set that belongs to no observable. -/
  | listenerSet (name : String)
  | listener (name : String) (body : Call V → Script V .listener)
  /-- Creates a listener that queues every change, and the receiver that takes them from the queue.
  -/
  | channel (name receiver : String)
  | view (name as : String)
  /-- Another handle of the same thing. -/
  | copy (name as : String)
  /-- A handle that does not keep a listener set alive. -/
  | weak (name as : String)
  | drop (name : String)
  | get (name : String)
  | bind (name target : String)
  | unbind (name : String)
  | isBound (name : String)
  | add (name listener : String)
  | remove (name listener : String)
  | contains (name listener : String)
  | count (name : String)
  | isEmpty (name : String)
  | id (name : String)
  | sameId (name other : String)
  | sameListener (name other : String)
  | drain (receiver : String) (asText : Bool)
  /-- The text of an observable's value. -/
  | display (name : String)
  | describe (name : String)
  /-- Whether two changes are equal. -/
  | compare (a b : Change V)
  /-- Returns a value that depends on nothing. -/
  | constant (v : V)

/-- The operations. -/
inductive Op (V : Type) : Type
  | act (action : Action V)
  /-- Validates a value and stores it in a free property. -/
  | set (name : String) (value : V)
  /-- Notifies the listeners of a set that belongs to no observable. -/
  | notify (name observed : String) (old new : V)
  /-- Creates a binding, whose value is always converted from the value of its source. -/
  | wrap (name as : String) (convert : V → Script V .converter)

end

end Observable
