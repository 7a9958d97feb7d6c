import Mathlib.Data.List.Forall2
import Observable.Proofs.Edit

/-!
# Handles of one property

A property is reached through its own name, through a clone's, and through views of it and of its
views. Most operations do not ask which of these a name denotes, so a program may use any of them in
place of another (`Op.Swapped`). The callbacks that an operation is given are programs as well, and
names may be replaced in them at any depth (`Op.Renamed`, `Script.Renamed`).

An action has the same effect through any handle (`World.act_of_swapped`). In worlds that differ in
the names that their callbacks use, and in nothing else (`World.Renamed`), it has the same effect
but for that, the same announcements and the same reply (`World.Renamed.act`).
-/

namespace Observable

variable {V : Type}

/-! ## Related results -/

section

variable {α β : Type} {R : α → β → Prop} {x : Option α} {y : Option β}

theorem none_or_some_of_rel (h : Option.Rel R x y) :
    (x = none ∧ y = none) ∨ ∃ a b, x = some a ∧ y = some b ∧ R a b := by
  cases h with
  | none => exact .inl ⟨rfl, rfl⟩
  | some hab => exact .inr ⟨_, _, rfl, rfl, hab⟩

theorem rel_bind {γ δ : Type} {S : γ → δ → Prop} {f : α → Option γ} {g : β → Option δ}
    (h : Option.Rel R x y) (hfg : ∀ a b, R a b → Option.Rel S (f a) (g b)) :
    Option.Rel S (x.bind f) (y.bind g) := by
  cases h with
  | none => exact .none
  | some hab => exact hfg _ _ hab

theorem bind_eq_of_rel {γ : Type} {f : α → Option γ} {g : β → Option γ} (h : Option.Rel R x y)
    (hfg : ∀ a b, R a b → g b = f a) : y.bind g = x.bind f := by
  cases h with
  | none => rfl
  | some hab => exact hfg _ _ hab

end

/-! ## Names of one property -/

theorem Handle.cases_of_readable? {h : Handle} {i : Id} (hi : h.readable? = some i) :
    h = .property i ∨ h = .view i := by
  cases h with
  | property j =>
    cases hi
    exact .inl rfl
  | view j =>
    cases hi
    exact .inr rfl
  | _ => cases hi

namespace World

/-- A view is observed as the property behind it. -/
theorem find?_observable?_of_readable? {w : World V} {n : String} {i : Id}
    (hi : w.find? n Handle.readable? = some i) : w.find? n Handle.observable? = some i := by
  obtain ⟨h, hfind, hread⟩ := names_find?_of_find? hi
  unfold World.find?
  rw [hfind]
  rcases Handle.cases_of_readable? hread with rfl | rfl <;> rfl

/-- The names are one and the same, or both denote the same property, directly or as a view. -/
def SameProperty (w : World V) (n n' : String) : Prop :=
  n = n' ∨ ∃ i, w.find? n Handle.readable? = some i ∧ w.find? n' Handle.readable? = some i

instance (w : World V) (n n' : String) : Decidable (w.SameProperty n n') :=
  decidable_of_iff
    (n = n' ∨ ((w.find? n Handle.readable?).isSome = true ∧
      w.find? n' Handle.readable? = w.find? n Handle.readable?)) <| by
    unfold SameProperty
    rw [Option.isSome_iff_exists]
    refine or_congr_right ⟨?_, ?_⟩
    · rintro ⟨⟨i, hi⟩, heq⟩
      exact ⟨i, hi, heq.trans hi⟩
    · rintro ⟨i, hi, hi'⟩
      exact ⟨⟨i, hi⟩, hi'.trans hi.symm⟩

/-- Whoever does not tell a view from its property finds the same under both names. -/
theorem SameProperty.find? {w : World V} {n n' : String} (hn : w.SameProperty n n') {α : Type}
    {select : Handle → Option α} (hselect : ∀ i, select (.view i) = select (.property i)) :
    w.find? n' select = w.find? n select := by
  rcases hn with rfl | ⟨i, hi, hi'⟩
  · rfl
  · obtain ⟨h, hfind, hread⟩ := names_find?_of_find? hi
    obtain ⟨h', hfind', hread'⟩ := names_find?_of_find? hi'
    unfold World.find?
    rw [hfind, hfind']
    rcases Handle.cases_of_readable? hread with rfl | rfl <;>
      rcases Handle.cases_of_readable? hread' with rfl | rfl <;>
        simp [hselect]

theorem SameProperty.withName {w : World V} {n n' : String} (hn : w.SameProperty n n') {α : Type}
    {select : Handle → Option α} (hselect : ∀ i, select (.view i) = select (.property i))
    (go : α → Effect V) : w.withName n' select go = w.withName n select go := by
  unfold World.withName
  rw [hn.find? hselect]

end World

/-! ## Operations through other handles -/

/-- The names in an action under which it takes any handle of a property. -/
def Action.handles : Action V → List String
  | .get n | .display n | .isBound n | .id n | .count n | .isEmpty n => [n]
  | .contains n _ | .add n _ | .remove n _ | .weak n _ | .view n _ => [n]
  | .bind _ target => [target]
  | .sameId n m => [n, m]
  | _ => []

/-- The names in an operation under which it takes any handle of a property. -/
def Op.handles : Op V → List String
  | .act a => a.handles
  | .set _ _ => []
  | .notify _ observed _ _ => [observed]
  | .wrap name _ _ => [name]

/-- The same action with other names for the handles that it takes. -/
inductive Action.Swapped : Action V → Action V → Prop
  | get (n n' : String) : Swapped (.get n) (.get n')
  | display (n n' : String) : Swapped (.display n) (.display n')
  | isBound (n n' : String) : Swapped (.isBound n) (.isBound n')
  | id (n n' : String) : Swapped (.id n) (.id n')
  | sameId (n n' m m' : String) : Swapped (.sameId n m) (.sameId n' m')
  | count (n n' : String) : Swapped (.count n) (.count n')
  | isEmpty (n n' : String) : Swapped (.isEmpty n) (.isEmpty n')
  | contains (n n' listener : String) : Swapped (.contains n listener) (.contains n' listener)
  | add (n n' listener : String) : Swapped (.add n listener) (.add n' listener)
  | remove (n n' listener : String) : Swapped (.remove n listener) (.remove n' listener)
  | weak (n n' as : String) : Swapped (.weak n as) (.weak n' as)
  | view (n n' as : String) : Swapped (.view n as) (.view n' as)
  /-- Only what is bound to is taken by any handle; a view cannot be bound. -/
  | bind (name n n' : String) : Swapped (.bind name n) (.bind name n')

/-- An action does not tell the handles of a property apart. -/
theorem World.act_of_swapped [BEq V] {w : World V} {a a' : Action V} (ha : a.Swapped a')
    (hnames : List.Forall₂ w.SameProperty a.handles a'.handles) (held : List Id) :
    w.act held a' = w.act held a := by
  cases ha with
  | sameId n n' m m' =>
    obtain ⟨hn, hm, _⟩ : w.SameProperty n n' ∧ w.SameProperty m m' ∧ True := by
      simpa [Action.handles] using hnames
    simp only [act]
    rw [hn.withName fun _ => rfl]
    congr 1
    funext i
    exact hm.withName (fun _ => rfl) _
  | bind name n n' =>
    have hn : w.SameProperty n n' := by simpa [Action.handles] using hnames
    simp only [act]
    congr 1
    funext i
    exact hn.withName (fun _ => rfl) _
  | _ n n' =>
    have hn : w.SameProperty n n' := by simpa [Action.handles] using hnames
    exact hn.withName (fun _ => rfl) _

/-! ## Programs through other handles -/

/-- The same event, up to the text that a callback gives for the operation which it performed. -/
inductive Event.Renamed : Event V → Event V → Prop
  | same (e : Event V) : Renamed e e
  | performed (text text' : String) (r : Reply V) :
    Renamed (.performed text r) (.performed text' r)

mutual

/-- A script that goes on in the same way after every reply, with other names for handles. -/
inductive Script.Renamed : {ρ : Role} → Script V ρ → Script V ρ → Prop
  | stop {ρ : Role} (a : Answer V ρ) : Script.Renamed (.stop a) (.stop a)
  | emit {ρ : Role} {e e' : Event V} {rest rest' : Script V ρ} (he : e.Renamed e')
      (hrest : Script.Renamed rest rest') : Script.Renamed (.emit e rest) (.emit e' rest')
  | perform {ρ : Role} {op op' : Op V} {next next' : Reply V → Script V ρ}
      (hop : Op.Renamed op op') (hnext : ∀ r, Script.Renamed (next r) (next' r)) :
    Script.Renamed (.perform op next) (.perform op' next')

/-- The same operation with other names for handles, in itself and in the callbacks that it is
given. -/
inductive Op.Renamed : Op V → Op V → Prop
  | same (op : Op V) : Op.Renamed op op
  | swapped {a a' : Action V} (ha : a.Swapped a') : Op.Renamed (.act a) (.act a')
  | property (name : String) (value : V) {validate validate' : V → Script V .validator}
      {report report' : Option (Error → Script V .reporter)}
      (hvalidate : ∀ v, Script.Renamed (validate v) (validate' v))
      (hreport : Option.Rel (fun f f' => ∀ e, Script.Renamed (f e) (f' e)) report report') :
    Op.Renamed (.act (.property name value validate report))
      (.act (.property name value validate' report'))
  | listener (name : String) {body body' : Call V → Script V .listener}
      (hbody : ∀ call, Script.Renamed (body call) (body' call)) :
    Op.Renamed (.act (.listener name body)) (.act (.listener name body'))
  | notify (name n n' : String) (old new : V) :
    Op.Renamed (.notify name n old new) (.notify name n' old new)
  | wrap (n n' as : String) {convert convert' : V → Script V .converter}
      (hconvert : ∀ v, Script.Renamed (convert v) (convert' v)) :
    Op.Renamed (.wrap n as convert) (.wrap n' as convert')

end

theorem Script.Renamed.refl : ∀ {ρ : Role} (script : Script V ρ), script.Renamed script
  | _, .stop a => .stop a
  | _, .emit e rest => .emit (.same e) (refl rest)
  | _, .perform op next => .perform (.same op) fun r => refl (next r)

/-! ## Objects and listeners -/

structure Property.Renamed (p p' : Property V) : Prop where
  value : p'.value = p.value
  validate : ∀ v, (p.validate v).Renamed (p'.validate v)
  report : Option.Rel (fun f f' => ∀ e, Script.Renamed (f e) (f' e)) p.report p'.report
  source : p'.source = p.source

structure Binding.Renamed (b b' : Binding V) : Prop where
  value : b'.value = b.value
  convert : ∀ v, (b.convert v).Renamed (b'.convert v)
  source : b'.source = b.source

/-- The same object with other names in its callbacks. -/
inductive Body.Renamed : Body V → Body V → Prop
  | property {p p' : Property V} (hp : p.Renamed p') : Renamed (.property p) (.property p')
  | binding {b b' : Binding V} (hb : b.Renamed b') : Renamed (.binding b) (.binding b')
  | bare : Renamed .bare .bare

structure Object.Renamed (x x' : Object V) : Prop where
  body : x.body.Renamed x'.body
  registrations : x'.registrations = x.registrations

/-- The same listener with other names in its callback. -/
inductive Listener.Renamed : Listener V → Listener V → Prop
  | callback (calls : Nat) {body body' : Call V → Script V .listener}
      (hbody : ∀ call, (body call).Renamed (body' call)) :
    Renamed (.callback calls body) (.callback calls body')
  | channel (sent : List (Change V)) (taken : Nat) :
    Renamed (.channel sent taken) (.channel sent taken)

namespace Body.Renamed

variable {b b' : Body V}

theorem value? (hb : b.Renamed b') : b'.value? = b.value? := by
  cases hb with
  | property hp => exact congrArg some hp.value
  | binding hb => exact congrArg some hb.value
  | bare => rfl

theorem relation? (hb : b.Renamed b') (i : Id) : b'.relation? i = b.relation? i := by
  cases hb with
  | property hp => simp only [Body.relation?, hp.source]
  | binding hb => simp only [Body.relation?, hb.source]
  | bare => rfl

theorem property? (hb : b.Renamed b') : Option.Rel Property.Renamed b.property? b'.property? := by
  cases hb with
  | property hp => exact .some hp
  | _ => exact .none

theorem binding? (hb : b.Renamed b') : Option.Rel Binding.Renamed b.binding? b'.binding? := by
  cases hb with
  | binding hb => exact .some hb
  | _ => exact .none

theorem store (hb : b.Renamed b') (v : V) : (b.store v).Renamed (b'.store v) := by
  cases hb with
  | property hp => exact .property ⟨rfl, hp.validate, hp.report, hp.source⟩
  | binding hb => exact .binding ⟨rfl, hb.convert, hb.source⟩
  | bare => exact .bare

theorem follow (hb : b.Renamed b') (source : Option Id) :
    (b.follow source).Renamed (b'.follow source) := by
  cases hb with
  | property hp => exact .property ⟨hp.value, hp.validate, hp.report, rfl⟩
  | binding hb => exact .binding hb
  | bare => exact .bare

end Body.Renamed

namespace Listener.Renamed

variable {x x' : Listener V}

theorem counted (hx : x.Renamed x') : x.counted.Renamed x'.counted := by
  cases hx with
  | callback calls hbody => exact .callback (calls + 1) hbody
  | channel sent taken => exact .channel sent taken

theorem send (hx : x.Renamed x') (c : Change V) : (x.send c).Renamed (x'.send c) := by
  cases hx with
  | callback calls hbody => exact .callback calls hbody
  | channel sent taken => exact .channel (sent ++ [c]) taken

theorem drain (hx : x.Renamed x') : x.drain.Renamed x'.drain := by
  cases hx with
  | callback calls hbody => exact .callback calls hbody
  | channel sent taken => exact .channel sent sent.length

theorem pending (hx : x.Renamed x') : x'.pending = x.pending := by
  cases hx <;> rfl

end Listener.Renamed

/-! ## Worlds -/

namespace World

/-- The same world with other names in its callbacks. -/
structure Renamed (w w' : World V) : Prop where
  size : w'.objects.size = w.objects.size
  objects : ∀ i, Option.Rel Object.Renamed (w.object? i) (w'.object? i)
  sizeListeners : w'.listeners.size = w.listeners.size
  listeners : ∀ l, Option.Rel Listener.Renamed (w.listeners.get? l) (w'.listeners.get? l)
  names : w'.names = w.names

namespace Renamed

variable {w w' : World V}

theorem empty : ({} : World V).Renamed {} where
  size := rfl
  objects _ := .none
  sizeListeners := rfl
  listeners _ := .none
  names := rfl

/-! ### What the worlds agree on -/

theorem alive (hw : w.Renamed w') (i : Id) : w'.alive i = w.alive i := by
  unfold World.alive
  obtain ⟨h, h'⟩ | ⟨x, x', h, h', _⟩ := none_or_some_of_rel (hw.objects i)
  · rw [h, h']
  · rw [h, h']
    rfl

theorem value? (hw : w.Renamed w') (i : Id) : w'.value? i = w.value? i :=
  bind_eq_of_rel (hw.objects i) fun _ _ hx => hx.body.value?

theorem relation? (hw : w.Renamed w') (i : Id) : w'.relation? i = w.relation? i :=
  bind_eq_of_rel (hw.objects i) fun _ _ hx => hx.body.relation? i

theorem registrations (hw : w.Renamed w') (i : Id) : w'.registrations i = w.registrations i := by
  unfold World.registrations
  obtain ⟨h, h'⟩ | ⟨x, x', h, h', hx⟩ := none_or_some_of_rel (hw.objects i)
  · rw [h, h']
  · rw [h, h']
    exact hx.registrations

theorem property? (hw : w.Renamed w') (i : Id) :
    Option.Rel Property.Renamed (w.property? i) (w'.property? i) :=
  rel_bind (hw.objects i) fun _ _ hx => hx.body.property?

theorem binding? (hw : w.Renamed w') (i : Id) :
    Option.Rel Binding.Renamed (w.binding? i) (w'.binding? i) :=
  rel_bind (hw.objects i) fun _ _ hx => hx.body.binding?

theorem isBound (hw : w.Renamed w') (i : Id) : w'.isBound i = w.isBound i := by
  unfold World.isBound
  obtain ⟨h, h'⟩ | ⟨p, p', h, h', hp⟩ := none_or_some_of_rel (hw.property? i)
  · rw [h, h']
  · rw [h, h']
    exact congrArg Option.isSome hp.source

theorem find? (hw : w.Renamed w') {α : Type} (n : String) (select : Handle → Option α) :
    w'.find? n select = w.find? n select := by
  unfold World.find?
  rw [hw.names]

/-! ### Writes -/

/-- One object changes in the same way in both worlds. -/
theorem alter (hw : w.Renamed w') (i : Id) {f : Object V → Object V}
    (hf : ∀ x x', Object.Renamed x x' → (f x).Renamed (f x')) :
    (w.alter i f).Renamed (w'.alter i f) :=
  { hw with
    size := by rw [size_objects_alter, size_objects_alter, hw.size]
    objects := by
      intro j
      rw [object?_alter, object?_alter]
      obtain ⟨h, h'⟩ | ⟨x, x', h, h', hx⟩ := none_or_some_of_rel (hw.objects j)
      · rw [h, h']
        split <;> exact .none
      · rw [h, h']
        split
        · exact .some (hf x x' hx)
        · exact .some hx }

theorem store (hw : w.Renamed w') (i : Id) (v : V) : (w.store i v).Renamed (w'.store i v) :=
  hw.alter i fun _ _ hx => ⟨hx.body.store v, hx.registrations⟩

theorem follow (hw : w.Renamed w') (i : Id) (source : Option Id) :
    (w.follow i source).Renamed (w'.follow i source) :=
  hw.alter i fun _ _ hx => ⟨hx.body.follow source, hx.registrations⟩

theorem register (hw : w.Renamed w') (i : Id) (r : Registration) :
    (w.register i r).Renamed (w'.register i r) :=
  hw.alter i fun _ _ hx => ⟨hx.body, congrArg (· ++ [r]) hx.registrations⟩

theorem unregister (hw : w.Renamed w') (i : Id) (r : Registration) :
    (w.unregister i r).Renamed (w'.unregister i r) :=
  hw.alter i fun _ _ hx => ⟨hx.body, congrArg (List.erase · r) hx.registrations⟩

theorem create (hw : w.Renamed w') {b b' : Body V} (hb : b.Renamed b') :
    (w.create b).Renamed (w'.create b') :=
  { hw with
    size := by rw [size_objects_create, size_objects_create, hw.size]
    objects := by
      intro j
      rw [object?_create, object?_create, hw.size]
      split
      · exact .some ⟨hb, rfl⟩
      · exact hw.objects j }

theorem createListener (hw : w.Renamed w') {x x' : Listener V} (hx : x.Renamed x') :
    (w.createListener x).Renamed (w'.createListener x') :=
  { hw with
    sizeListeners := by
      rw [World.createListener, World.createListener, Table.size_push, Table.size_push,
        hw.sizeListeners]
    listeners := by
      intro l
      rw [World.createListener, World.createListener, Table.get?_push, Table.get?_push,
        hw.sizeListeners]
      split
      · exact .some hx
      · exact hw.listeners l }

theorem alterListener (hw : w.Renamed w') (m : ListenerId) {f : Listener V → Listener V}
    (hf : ∀ x x', Listener.Renamed x x' → (f x).Renamed (f x')) :
    (w.alterListener m f).Renamed (w'.alterListener m f) :=
  { hw with
    sizeListeners := by
      rw [World.alterListener, World.alterListener, Table.size_modify, Table.size_modify,
        hw.sizeListeners]
    listeners := by
      intro l
      rw [World.alterListener, World.alterListener, Table.get?_modify, Table.get?_modify]
      obtain ⟨h, h'⟩ | ⟨x, x', h, h', hx⟩ := none_or_some_of_rel (hw.listeners l)
      · rw [h, h']
        split <;> exact .none
      · rw [h, h']
        split
        · exact .some (hf x x' hx)
        · exact .some hx }

/-! ### Lifetimes -/

theorem bury (hw : w.Renamed w') (i : Id) : (w.bury i).Renamed (w'.bury i) where
  size := by rw [size_objects_bury, size_objects_bury, hw.size]
  objects := by
    intro j
    rw [object?_bury, object?_bury, hw.relation?]
    split
    · exact .none
    · cases w.relation? i with
      | none => exact hw.objects j
      | some x =>
        simp only
        rw [← object?_alter, ← object?_alter]
        exact (hw.unregister x.1 x.2).objects j
  sizeListeners := by rw [listeners_bury, listeners_bury, hw.sizeListeners]
  listeners := by
    intro l
    rw [listeners_bury, listeners_bury]
    exact hw.listeners l
  names := by rw [names_bury, names_bury, hw.names]

theorem release (hw : w.Renamed w') (held : List Id) (i : Id) :
    (w.release held i).Renamed (w'.release held i) := by
  unfold World.release
  rw [hw.names]
  split
  · exact hw
  · exact hw.bury i

theorem discard (hw : w.Renamed w') (held : List Id) (h : Option Handle) :
    (w.discard held h).Renamed (w'.discard held h) := by
  unfold World.discard
  split
  · exact hw
  · exact hw.release held _

theorem withNames (hw : w.Renamed w') (names : Registry) :
    World.Renamed { w with names := names } { w' with names := names } :=
  { hw with names := rfl }

theorem assign (hw : w.Renamed w') (held : List Id) (n : String) (h : Handle) :
    (w.assign held n h).Renamed (w'.assign held n h) := by
  unfold World.assign
  rw [hw.names]
  exact (hw.withNames _).discard held _

theorem forget (hw : w.Renamed w') (held : List Id) (n : String) :
    (w.forget held n).Renamed (w'.forget held n) := by
  unfold World.forget
  rw [hw.names]
  exact (hw.withNames _).discard held _

end Renamed

end World

/-! ## Actions -/

/-- The same effect in a world with other names in its callbacks. -/
structure Effect.Renamed (e e' : Effect V) : Prop where
  world : e.world.Renamed e'.world
  traces : e'.traces = e.traces
  reply : e'.reply = e.reply

namespace World.Renamed

variable {w w' : World V}

theorem replies (hw : w.Renamed w') (r : Reply V) : (w.replies r).Renamed (w'.replies r) :=
  ⟨hw, rfl, rfl⟩

theorem named (hw : w.Renamed w') (held : List Id) (n : String) (h : Handle) :
    (w.named held n h).Renamed (w'.named held n h) :=
  ⟨hw.assign held n h, rfl, rfl⟩

theorem withLive (hw : w.Renamed w') {α β : Type} {R : α → β → Prop} {found : Option α}
    {found' : Option β} (hfound : Option.Rel R found found') {go : α → Effect V}
    {go' : β → Effect V} (hgo : ∀ a b, R a b → (go a).Renamed (go' b)) :
    (w.withLive found go).Renamed (w'.withLive found' go') := by
  cases hfound with
  | none => exact hw.replies _
  | some hab => exact hgo _ _ hab

theorem withName (hw : w.Renamed w') {α : Type} (n : String) (select : Handle → Option α)
    {go go' : α → Effect V} (hgo : ∀ a, (go a).Renamed (go' a)) :
    (w.withName n select go).Renamed (w'.withName n select go') := by
  unfold World.withName
  rw [hw.find?]
  split
  · exact hw.replies _
  · exact hgo _

/-- What is shown of the same value is the same. -/
theorem withValue (hw : w.Renamed w') (i : Id) (f : V → Payload V) :
    (w.withLive (w.value? i) fun v => w.returns (f v)).Renamed
      (w'.withLive (w'.value? i) fun v => w'.returns (f v)) := by
  rw [hw.value?]
  cases w.value? i with
  | none => exact hw.replies _
  | some v => exact hw.replies _

theorem remove (hw : w.Renamed w') (i : Id) (r : Registration) :
    (w.remove i r).Renamed (w'.remove i r) := by
  unfold World.remove
  rw [hw.alive, hw.registrations]
  split
  · exact hw.replies _
  · exact ⟨hw.unregister i r, rfl, rfl⟩

theorem bind (hw : w.Renamed w') (i source : Id) :
    (w.bind i source).Renamed (w'.bind i source) := by
  refine hw.withLive (hw.property? i) fun p p' hp => ?_
  rw [hp.source]
  split
  · exact hw.replies _
  · split
    · exact hw.replies _
    · exact ⟨(hw.register source _).follow i _, rfl, rfl⟩

theorem unbind (hw : w.Renamed w') (i : Id) : (w.unbind i).Renamed (w'.unbind i) := by
  refine hw.withLive (hw.property? i) fun p p' hp => ?_
  rw [hp.source]
  cases p.source with
  | none => exact hw.replies _
  | some source =>
    have hremove := (hw.follow i none).remove source (.bound i)
    exact ⟨hremove.world, rfl, hremove.reply⟩

theorem describe? (hw : w.Renamed w') (h : Handle) : w'.describe? h = w.describe? h := by
  cases h with
  | property i | view i =>
    simp only [World.describe?, hw.registrations]
    obtain ⟨h, h'⟩ | ⟨p, p', h, h', hp⟩ := none_or_some_of_rel (hw.property? i)
    · simp [h, h']
    · simp [h, h', hp.value, hp.source]
  | binding i =>
    simp only [World.describe?, hw.registrations]
    obtain ⟨h, h'⟩ | ⟨b, b', h, h', hb⟩ := none_or_some_of_rel (hw.binding? i)
    · simp [h, h']
    · simp [h, h', hb.value]
  | set i => simp only [World.describe?, hw.alive, hw.registrations]
  | _ => rfl

theorem drain (hw : w.Renamed w') (l : ListenerId) (f : List (Change V) → Payload V) :
    (w.withLive (w.listeners.get? l) fun queue =>
        (w.alterListener l Listener.drain).returns (f queue.pending)).Renamed
      (w'.withLive (w'.listeners.get? l) fun queue =>
        (w'.alterListener l Listener.drain).returns (f queue.pending)) := by
  refine hw.withLive (hw.listeners l) fun x x' hx => ?_
  rw [hx.pending]
  exact ⟨hw.alterListener l fun _ _ h => h.drain, rfl, rfl⟩

theorem property (hw : w.Renamed w') (held : List Id) (name : String) {p p' : Property V}
    (hp : p.Renamed p') :
    ((w.create (.property p)).named held name (.property w.objects.size)).Renamed
      ((w'.create (.property p')).named held name (.property w'.objects.size)) := by
  rw [hw.size]
  exact (hw.create (.property hp)).named held name _

theorem listener (hw : w.Renamed w') (held : List Id) (name : String)
    {body body' : Call V → Script V .listener}
    (hbody : ∀ call, (body call).Renamed (body' call)) :
    ((w.createListener (.callback 0 body)).named held name (.listener w.listeners.size)).Renamed
      ((w'.createListener (.callback 0 body')).named held name (.listener w'.listeners.size)) := by
  rw [hw.sizeListeners]
  exact (hw.createListener (.callback 0 hbody)).named held name _

theorem act [BEq V] (hw : w.Renamed w') (held : List Id) (a : Action V) :
    (w.act held a).Renamed (w'.act held a) := by
  cases a with
  | property name value validate report =>
    refine hw.property held name ⟨rfl, fun v => .refl _, ?_, rfl⟩
    cases report with
    | none => exact .none
    | some f => exact .some fun e => .refl _
  | listenerSet name =>
    simp only [World.act, hw.size]
    exact (hw.create .bare).named held name _
  | listener name body => exact hw.listener held name fun call => .refl _
  | channel name receiver =>
    simp only [World.act, hw.sizeListeners]
    exact ((hw.createListener (.channel [] 0)).assign held name _).named held receiver _
  | view name as => exact hw.withName name _ fun i => hw.named held as _
  | copy name as => exact hw.withName name _ fun h => hw.named held as h
  | weak name as => exact hw.withName name _ fun i => hw.named held as _
  | drop name => exact hw.withName name _ fun _ => ⟨hw.forget held name, rfl, rfl⟩
  | get name => exact hw.withName name _ fun i => hw.withValue i .value
  | display name => exact hw.withName name _ fun i => hw.withValue i .text
  | bind name target =>
    exact hw.withName name _ fun i => hw.withName target _ fun source => hw.bind i source
  | unbind name => exact hw.withName name _ fun i => hw.unbind i
  | isBound name =>
    simp only [World.act, hw.isBound]
    exact hw.withName name _ fun i => hw.replies _
  | add name listener =>
    exact hw.withName name _ fun i => hw.withName listener _ fun l =>
      ⟨hw.register i (.listener l), rfl, rfl⟩
  | remove name listener =>
    exact hw.withName name _ fun i => hw.withName listener _ fun l => hw.remove i (.listener l)
  | contains name listener =>
    simp only [World.act, hw.registrations]
    exact hw.withName name _ fun i => hw.withName listener _ fun l => hw.replies _
  | count name =>
    simp only [World.act, hw.registrations]
    exact hw.withName name _ fun i => hw.replies _
  | isEmpty name =>
    simp only [World.act, hw.registrations]
    exact hw.withName name _ fun i => hw.replies _
  | id name => exact hw.withName name _ fun i => hw.replies _
  | sameId name other =>
    exact hw.withName name _ fun i => hw.withName other _ fun j => hw.replies _
  | sameListener name other =>
    exact hw.withName name _ fun l => hw.withName other _ fun m => hw.replies _
  | drain receiver asText =>
    exact hw.withName receiver _ fun l =>
      hw.drain l fun changes => if asText then .changeTexts changes else .changes changes
  | describe name =>
    refine hw.withName name _ fun h => ?_
    rw [hw.describe?]
    cases w.describe? h with
    | none => exact hw.replies _
    | some d => exact hw.replies _
  | compare a b => exact hw.replies _
  | constant v => exact hw.replies _

end World.Renamed

end Observable
