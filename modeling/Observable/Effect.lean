import Observable.Lifetime

/-!
# Operations that run no callback

What each `Action` does, as a function on the world: the world after it, what the library announces
meanwhile, and the reply. The functions on numbers (`World.bind`, `World.unbind`, `World.remove`)
hold the rules; `World.act` looks up the names, the operation's own name first, and answers
`unknownName` when one of them denotes nothing suitable.
-/

namespace Observable

/-- What an action leads to. -/
structure Effect (V : Type) where
  world : World V
  traces : List Trace := []
  reply : Reply V

namespace World

variable {V : Type}

/-- A reply that leaves the world as it is. -/
def replies (w : World V) (r : Reply V) : Effect V := { world := w, reply := r }

/-- A result that leaves the world as it is. -/
def returns (w : World V) (p : Payload V) : Effect V := w.replies (.done p)

/-! ## Registrations -/

/-- Removes the oldest registration of a kind from an object's list, which must have one. The list
of a dead object is empty and gone, so there removal succeeds. -/
def remove (w : World V) (i : Id) (r : Registration) : Effect V :=
  if w.alive i && !(w.registrations i).contains r then w.replies (.failed .missingListener)
  else (w.unregister i r).returns .unit

/-! ## Bound properties -/

/-- Goes on with something looked up by number; a handle in the registry keeps it alive. -/
def withLive {α : Type} (w : World V) (found : Option α) (go : α → Effect V) : Effect V :=
  match found with
  | none => w.replies .unknownName
  | some a => go a

/-- Binds a property to an observable. The value is not touched: only later changes are followed. -/
def bind (w : World V) (i source : Id) : Effect V :=
  w.withLive (w.property? i) fun p =>
    if i = source then w.replies (.failed .selfBinding)
    else if p.source.isSome then w.replies (.failed .alreadyBound)
    else
      { world := (w.register source (.bound i)).follow i (some source)
        traces := [.bound i source]
        reply := .done .unit }

/-- Frees a property, which keeps the value it has. -/
def unbind (w : World V) (i : Id) : Effect V :=
  w.withLive (w.property? i) fun p =>
    match p.source with
    | none => w.replies (.failed .notBound)
    | some source =>
      let e := (w.follow i none).remove source (.bound i)
      { e with traces := [.unbound i source] }

/-! ## What an object shows -/

/-- What the thing behind a handle looks like from outside. -/
def describe? (w : World V) : Handle → Option (Description V)
  | .property i => (w.property? i).map fun p =>
      .property p.value p.source.isSome i (w.registrations i).length
  | .view i => (w.property? i).map fun p =>
      .view p.value p.source.isSome i (w.registrations i).length
  | .binding i => (w.binding? i).map fun b => .binding b.value i (w.registrations i).length
  | .set i => if w.alive i then some (.set i (w.registrations i).length) else none
  | .listener _ => some .listener
  | .weak _ | .receiver _ => none

/-! ## Names -/

/-- Gives a name a handle as the last thing an action does. -/
def named (w : World V) (held : List Id) (name : String) (h : Handle) : Effect V :=
  (w.assign held name h).returns .unit

/-- Goes on with what a name denotes, or answers that it denotes nothing suitable. -/
def withName {α : Type} (w : World V) (name : String) (select : Handle → Option α)
    (go : α → Effect V) : Effect V :=
  match w.find? name select with
  | none => w.replies .unknownName
  | some a => go a

/-- What an action does while the objects in `held` are held by operations in progress. -/
def act [BEq V] (w : World V) (held : List Id) : Action V → Effect V
  | .property name value validate report =>
      (w.create (.property ⟨value, validate, report, none⟩)).named held name
        (.property w.objects.size)
  | .listenerSet name => (w.create .bare).named held name (.set w.objects.size)
  | .listener name body =>
      (w.createListener (.callback 0 body)).named held name (.listener w.listeners.size)
  | .channel name receiver =>
      ((w.createListener (.channel [] 0)).assign held name (.listener w.listeners.size)).named held
        receiver (.receiver w.listeners.size)
  | .view name as => w.withName name Handle.readable? fun i => w.named held as (.view i)
  | .copy name as => w.withName name some fun h => w.named held as h
  | .weak name as => w.withName name Handle.listened? fun i => w.named held as (.weak i)
  | .drop name => w.withName name some fun _ => (w.forget held name).returns .unit
  | .get name => w.withName name Handle.observable? fun i =>
      w.withLive (w.value? i) fun v => w.returns (.value v)
  | .bind name target => w.withName name Handle.property? fun i =>
      w.withName target Handle.observable? fun source => w.bind i source
  | .unbind name => w.withName name Handle.property? fun i => w.unbind i
  | .isBound name => w.withName name Handle.readable? fun i => w.returns (.flag (w.isBound i))
  | .add name listener => w.withName name Handle.listened? fun i =>
      w.withName listener Handle.listener? fun l =>
        (w.register i (.listener l)).returns .unit
  | .remove name listener => w.withName name Handle.numbered? fun i =>
      w.withName listener Handle.listener? fun l => w.remove i (.listener l)
  | .contains name listener => w.withName name Handle.listened? fun i =>
      w.withName listener Handle.listener? fun l =>
        w.returns (.flag ((w.registrations i).contains (.listener l)))
  | .count name => w.withName name Handle.listened? fun i =>
      w.returns (.count (w.registrations i).length)
  | .isEmpty name => w.withName name Handle.listened? fun i =>
      w.returns (.flag (w.registrations i).isEmpty)
  | .id name => w.withName name Handle.numbered? fun i => w.returns (.id i)
  | .sameId name other => w.withName name Handle.numbered? fun i =>
      w.withName other Handle.numbered? fun j => w.returns (.flag (i == j))
  | .sameListener name other => w.withName name Handle.listener? fun l =>
      w.withName other Handle.listener? fun m => w.returns (.flag (l == m))
  | .drain receiver asText => w.withName receiver Handle.receiver? fun l =>
      w.withLive (w.listeners.get? l) fun queue =>
        (w.alterListener l Listener.drain).returns
          (if asText then .changeTexts queue.pending else .changes queue.pending)
  | .display name => w.withName name Handle.observable? fun i =>
      w.withLive (w.value? i) fun v => w.returns (.text v)
  | .describe name => w.withName name some fun h =>
      w.withLive (w.describe? h) fun d => w.returns (.description d)
  | .compare a b => w.returns (.flag (a == b))
  | .constant v => w.returns (.value v)

end World

end Observable
