import Mathlib.Data.List.Forall2
import Observable.Proofs.Indifference
import Observable.Proofs.Rounds

/-!
# Steps with one more observer

Two configurations are compared of which the second has one more observer, as in the worlds of
`World.Watched`: the same frames wait, the rounds in progress have the same calls before them, apart
from those of the observer, and the same is going on (`Config.Alike`).

A step keeps them alike (`Config.Alike.step`). Where the second configuration is about to call the
observer, it takes two steps of its own first, and stays alike to the first configuration
(`Config.Alike.visit`).
-/

namespace Observable

variable {V : Type}

/-! ## States -/

/-- An event, and the event in its place where `o` has one more observer. -/
inductive Event.Alike (o : Id) (shown : Reply V → Prop) : Event V → Event V → Prop
  | tells {e e' : Event V} (h : e.Tells shown e') : Alike o shown e e'
  /-- The announcement of a round over the listeners of `o`. -/
  | notifying (n : Nat) :
    Alike o shown (.trace (.notifying o n)) (.trace (.notifying o (n + 1)))

theorem Event.Alike.mono {o : Id} {shown shown' : Reply V → Prop} {e e' : Event V}
    (h : e.Alike o shown e') (hle : ∀ r, shown r → shown' r) : e.Alike o shown' e' := by
  cases h with
  | tells h => exact .tells (h.mono hle)
  | notifying n => exact .notifying n

structure State.Alike (o : Id) (m : ListenerId) (hidden : List String) (shown : Reply V → Prop)
    (s s' : State V) : Prop where
  world : s.world.Watched o m hidden s'.world
  log : List.Forall₂ (Event.Alike o shown) s.log s'.log

/-! ## Frames -/

namespace Stack

/-- The same frames wait. -/
inductive Alike (m : ListenerId) (hidden : List String) (shown : Reply V → Prop) :
    {a : Awaits} → Stack V a → Stack V a → Prop
  | idle : Alike m hidden shown .idle .idle
  | script {ρ : Role} {next next' : Reply V → Script V ρ} {k k' : Stack V (.answer ρ)}
      (hnext : ∀ r, (next r).Alike shown (next' r)) (hk : Alike m hidden shown k k') :
    Alike m hidden shown (.script next k) (.script next' k')
  | setting (i : Id) {k k' : Stack V .reply} (hk : Alike m hidden shown k k') :
    Alike m hidden shown (.setting i k) (.setting i k')
  | following (i : Id) {k k' : Stack V .call} (hk : Alike m hidden shown k k') :
    Alike m hidden shown (.following i k) (.following i k')
  | validating (i : Id) {k k' : Stack V .update} (hk : Alike m hidden shown k k') :
    Alike m hidden shown (.validating i k) (.validating i k')
  | reporting (i : Id) (e : Error) {k k' : Stack V .update} (hk : Alike m hidden shown k k') :
    Alike m hidden shown (.reporting i e k) (.reporting i e k')
  | converting (i : Id) {k k' : Stack V .call} (hk : Alike m hidden shown k k') :
    Alike m hidden shown (.converting i k) (.converting i k')
  | wrapping (i : Id) {name : String} (hname : name ∉ hidden)
      (convert : V → Script V .converter) {k k' : Stack V .reply}
      (hk : Alike m hidden shown k k') :
    Alike m hidden shown (.wrapping i name convert k) (.wrapping i name convert k')
  | listening {k k' : Stack V .call} (hk : Alike m hidden shown k k') :
    Alike m hidden shown (.listening k) (.listening k')
  | round {rest rest' : List Registration} (hrest : Joined m rest rest') (observed : Id)
      (old new : V) {k k' : Stack V .round} (hk : Alike m hidden shown k k') :
    Alike m hidden shown (.round rest observed old new k) (.round rest' observed old new k')
  | notifying (i j : Id) {k k' : Stack V .reply} (hk : Alike m hidden shown k k') :
    Alike m hidden shown (.notifying i j k) (.notifying i j k')
  | updating (i : Id) (old : V) {k k' : Stack V .update} (hk : Alike m hidden shown k k') :
    Alike m hidden shown (.updating i old k) (.updating i old k')
  | recomputing (i : Id) {k k' : Stack V .call} (hk : Alike m hidden shown k k') :
    Alike m hidden shown (.recomputing i k) (.recomputing i k')

/-- The same frames wait for a reply, and with `r` and `r'` they go on alike. -/
inductive Resuming (m : ListenerId) (hidden : List String) (shown : Reply V → Prop)
    (r r' : Reply V) : Stack V .reply → Stack V .reply → Prop
  | idle : Resuming m hidden shown r r' .idle .idle
  | script {ρ : Role} {next next' : Reply V → Script V ρ} {k k' : Stack V (.answer ρ)}
      (hnext : (next r).Alike shown (next' r')) (hk : k.Alike m hidden shown k') :
    Resuming m hidden shown r r' (.script next k) (.script next' k')

variable {m : ListenerId} {hidden : List String} {shown shown' : Reply V → Prop}

namespace Alike

theorem mono {a : Awaits} {k k' : Stack V a} (hk : k.Alike m hidden shown k')
    (hle : ∀ r, shown r → shown' r) : k.Alike m hidden shown' k' := by
  induction hk with
  | idle => exact .idle
  | script hnext _ ih => exact .script (fun r => (hnext r).mono hle) ih
  | setting i _ ih => exact .setting i ih
  | following i _ ih => exact .following i ih
  | validating i _ ih => exact .validating i ih
  | reporting i e _ ih => exact .reporting i e ih
  | converting i _ ih => exact .converting i ih
  | wrapping i hname convert _ ih => exact .wrapping i hname convert ih
  | listening _ ih => exact .listening ih
  | round hrest observed old new _ ih => exact .round hrest observed old new ih
  | notifying i j _ ih => exact .notifying i j ih
  | updating i old _ ih => exact .updating i old ih
  | recomputing i _ ih => exact .recomputing i ih

theorem holds {a : Awaits} {k k' : Stack V a} (hk : k.Alike m hidden shown k') :
    k'.holds = k.holds := by
  induction hk with
  | idle => rfl
  | _ => simp_all [Stack.holds]

theorem depth {a : Awaits} {k k' : Stack V a} (hk : k.Alike m hidden shown k') :
    k'.depth = k.depth := by
  unfold Stack.depth
  induction hk with
  | idle => rfl
  | _ => simp_all [tails]

theorem owner {k k' : Stack V .round} (hk : k.Alike m hidden shown k') : k'.owner = k.owner := by
  cases hk <;> rfl

theorem updated {k k' : Stack V .update} (hk : k.Alike m hidden shown k') :
    k'.updated = k.updated := by
  cases hk <;> rfl

/-- With the same reply, both go on alike. -/
theorem resuming {k k' : Stack V .reply} (hk : k.Alike m hidden shown k') (r : Reply V) :
    k.Resuming m hidden shown r r k' := by
  cases hk with
  | idle => exact .idle
  | script hnext hk => exact .script (hnext r) hk

end Alike

theorem Resuming.mono {r r' : Reply V} {k k' : Stack V .reply}
    (hk : k.Resuming m hidden shown r r' k') (hle : ∀ r, shown r → shown' r) :
    k.Resuming m hidden shown' r r' k' := by
  cases hk with
  | idle => exact .idle
  | script hnext hk => exact .script (hnext.mono hle) (hk.mono hle)

theorem Resuming.depth {r r' : Reply V} {k k' : Stack V .reply}
    (hk : k.Resuming m hidden shown r r' k') : k'.depth = k.depth := by
  cases hk with
  | idle => rfl
  | script _ hk => exact congrArg (· + 1) hk.depth

end Stack

/-! ## Configurations -/

/-- The same is going on; a reply becomes what `f` makes of it. -/
inductive Focus.Alike (m : ListenerId) (hidden : List String) (shown : Reply V → Prop)
    (f : Reply V → Reply V) : Focus V → Focus V → Prop
  | operate (op : Op V) {k k' : Stack V .reply} (hk : k.Alike m hidden shown k') :
    Alike m hidden shown f (.operate op k) (.operate op k')
  | reply {r r' : Reply V} (hr : r' = f r) {k k' : Stack V .reply}
      (hk : k.Resuming m hidden shown r r' k') : Alike m hidden shown f (.reply r k) (.reply r' k')
  | run {ρ : Role} {script script' : Script V ρ} (hscript : script.Alike shown script')
      {k k' : Stack V (.answer ρ)} (hk : k.Alike m hidden shown k') :
    Alike m hidden shown f (.run script k) (.run script' k')
  | round {rest rest' : List Registration} (hrest : Joined m rest rest') (observed : Id)
      (old new : V) {k k' : Stack V .round} (hk : k.Alike m hidden shown k') :
    Alike m hidden shown f (.round rest observed old new k) (.round rest' observed old new k')
  | called (r : Except Error Unit) {k k' : Stack V .call} (hk : k.Alike m hidden shown k') :
    Alike m hidden shown f (.called r k) (.called r k')
  | rounded (r : Except Error Unit) {k k' : Stack V .round} (hk : k.Alike m hidden shown k') :
    Alike m hidden shown f (.rounded r k) (.rounded r k')
  | updated (r : Except Error V) {k k' : Stack V .update} (hk : k.Alike m hidden shown k') :
    Alike m hidden shown f (.updated r k) (.updated r k')

structure Config.Alike (o : Id) (m : ListenerId) (hidden : List String) (shown : Reply V → Prop)
    (f : Reply V → Reply V) (c c' : Config V) : Prop where
  state : c.state.Alike o m hidden shown c'.state
  focus : c.focus.Alike m hidden shown f c'.focus

section

variable {o : Id} {m : ListenerId} {hidden : List String} {shown shown' : Reply V → Prop}
  {f : Reply V → Reply V}

theorem State.Alike.mono {s s' : State V} (hs : s.Alike o m hidden shown s')
    (hle : ∀ r, shown r → shown' r) : s.Alike o m hidden shown' s' :=
  ⟨hs.world, hs.log.imp fun _ _ h => h.mono hle⟩

theorem Focus.Alike.mono {x x' : Focus V} (hx : x.Alike m hidden shown f x')
    (hle : ∀ r, shown r → shown' r) : x.Alike m hidden shown' f x' := by
  cases hx with
  | operate op hk => exact .operate op (hk.mono hle)
  | reply hr hk => exact .reply hr (hk.mono hle)
  | run hscript hk => exact .run (hscript.mono hle) (hk.mono hle)
  | round hrest observed old new hk => exact .round hrest observed old new (hk.mono hle)
  | called r hk => exact .called r (hk.mono hle)
  | rounded r hk => exact .rounded r (hk.mono hle)
  | updated r hk => exact .updated r (hk.mono hle)

/-- The same operation begins. -/
theorem Focus.Alike.operate_eq {x x' : Focus V} (hx : x.Alike m hidden shown f x') {op : Op V}
    {k : Stack V .reply} (hop : x = .operate op k) :
    ∃ k', x' = .operate op k' ∧ k'.depth = k.depth := by
  cases hx with
  | operate op hk =>
    cases hop
    exact ⟨_, rfl, hk.depth⟩
  | _ => cases hop

/-- The same operation has a reply. -/
theorem Focus.Alike.reply_eq {x x' : Focus V} (hx : x.Alike m hidden shown f x') {r : Reply V}
    {k : Stack V .reply} (hreply : x = .reply r k) :
    ∃ k', x' = .reply (f r) k' ∧ k'.depth = k.depth := by
  cases hx with
  | reply hr hk =>
    cases hreply
    exact ⟨_, by rw [hr], hk.depth⟩
  | _ => cases hreply

theorem Config.Alike.mono {c c' : Config V} (hc : c.Alike o m hidden shown f c')
    (hle : ∀ r, shown r → shown' r) : c.Alike o m hidden shown' f c' :=
  ⟨hc.state.mono hle, hc.focus.mono hle⟩

end

/-! ## What the rules do -/

namespace State.Alike

variable {o : Id} {m : ListenerId} {hidden : List String} {shown : Reply V → Prop}
  {s s' : State V}

theorem withWorld (hs : s.Alike o m hidden shown s') {w w' : World V}
    (hw : w.Watched o m hidden w') :
    State.Alike o m hidden shown { s with world := w } { s' with world := w' } :=
  ⟨hw, hs.log⟩

theorem emit (hs : s.Alike o m hidden shown s') {e e' : Event V} (he : e.Alike o shown e') :
    (s.emit e).Alike o m hidden shown (s'.emit e') :=
  ⟨hs.world, List.rel_append hs.log (.cons he .nil)⟩

theorem release (hs : s.Alike o m hidden shown s') {a : Awaits} {k k' : Stack V a}
    (hk : k.Alike m hidden shown k') (i : Id) :
    (s.release k i).Alike o m hidden shown (s'.release k' i) := by
  unfold State.release
  rw [hk.holds]
  exact hs.withWorld (hs.world.release _ i)

/-- A round is announced, over one more listener if it is one over the watched list. -/
theorem announce (hs : s.Alike o m hidden shown s') (observed : Id) (old new : V)
    {k k' : Stack V .round} (hk : k.Alike m hidden shown k') :
    (s.announce observed old new k).Alike o m hidden shown id
      (s'.announce observed old new k') := by
  have hjoined := hs.world.joined k.owner
  unfold State.announce
  rw [hk.owner]
  refine ⟨hs.emit ?_, .round hjoined observed old new hk⟩
  cases halive : s.world.alive k.owner with
  | false =>
    obtain ⟨h, h'⟩ | ⟨x, _, h, _⟩ := hs.world.object?_cases k.owner
    · rw [World.registrations_of_dead h, World.registrations_of_dead h']
      exact .tells (.same _)
    · simp [World.alive, h] at halive
  | true =>
    obtain ⟨heq, hlength⟩ | ⟨_, hlength⟩ := hs.world.length_cases halive
    · rw [hlength, Option.some.inj heq]
      exact .notifying _
    · rw [hlength]
      exact .tells (.same _)

theorem update (hs : s.Alike o m hidden shown s') (p : Property V) (v : V)
    {k k' : Stack V .update} (hk : k.Alike m hidden shown k') :
    (s.update p v k).Alike o m hidden shown id (s'.update p v k') := by
  unfold State.update
  rw [hk.updated]
  exact ⟨hs, .run (.refl _ _) (.validating _ hk)⟩

theorem fail (hs : s.Alike o m hidden shown s') (e : Error) {k k' : Stack V .update}
    (hk : k.Alike m hidden shown k') :
    (s.fail e k).Alike o m hidden shown id (s'.fail e k') := by
  unfold State.fail
  rw [hk.updated, hs.world.property?]
  split
  · exact ⟨hs, .updated _ hk⟩
  · exact ⟨hs, .run (.refl _ _) (.reporting _ e hk)⟩

theorem commit [BEq V] (hs : s.Alike o m hidden shown s') (v : V) {k k' : Stack V .update}
    (hk : k.Alike m hidden shown k') :
    (s.commit v k).Alike o m hidden shown id (s'.commit v k') := by
  unfold State.commit
  rw [hk.updated, hs.world.value?]
  split
  · exact ⟨hs, .updated _ hk⟩
  · split
    · exact ⟨hs, .updated _ hk⟩
    · exact (hs.withWorld (hs.world.store _ v)).announce _ _ _ (.updating _ _ hk)

theorem recompute (hs : s.Alike o m hidden shown s') (i : Id) (v : V) {k k' : Stack V .call}
    (hk : k.Alike m hidden shown k') :
    (s.recompute i v k).Alike o m hidden shown id (s'.recompute i v k') := by
  unfold State.recompute
  rw [hs.world.value?]
  split
  · exact ⟨hs.release hk i, .called _ hk⟩
  · exact (hs.withWorld (hs.world.store i v)).announce _ _ _ (.recomputing i hk)

theorem wrap (hs : s.Alike o m hidden shown s') (source : Id) {name : String}
    (hname : name ∉ hidden) (convert : V → Script V .converter) (v : V) {k k' : Stack V .reply}
    (hk : k.Alike m hidden shown k') :
    (s.wrap source name convert v k).Alike o m hidden shown id
      (s'.wrap source name convert v k') := by
  have hworld := ((hs.world.register source (.derived s.world.objects.size)).create
    (.binding ⟨v, convert, source⟩)).assign (source :: k.holds) hname
      (.binding s.world.objects.size)
  unfold State.wrap
  rw [hk.holds, hs.world.size]
  refine ⟨State.Alike.release ?_ hk source, .reply rfl (hk.resuming _)⟩
  exact (hs.withWorld hworld).emit (.tells (.same _))

theorem call (hs : s.Alike o m hidden shown s') (r : Registration) (observed : Id) (old new : V)
    {k k' : Stack V .call} (hk : k.Alike m hidden shown k') :
    (s.call r observed old new k).Alike o m hidden shown id
      (s'.call (r.shift m) observed old new k') := by
  cases r with
  | listener l =>
    simp only [State.call, Registration.shift, hs.world.listeners, hs.world.value?]
    split
    · exact ⟨hs, .called _ hk⟩
    · exact ⟨hs.withWorld (hs.world.alterListener l _), .called _ hk⟩
    · exact ⟨hs.withWorld (hs.world.alterListener l _), .run (.refl _ _) (.listening hk)⟩
  | bound i =>
    simp only [State.call, Registration.shift, hs.world.property?]
    split
    · exact ⟨hs, .called _ hk⟩
    · exact hs.update _ new (.following i hk)
  | derived i =>
    simp only [State.call, Registration.shift, hs.world.binding?]
    split
    · exact ⟨hs, .called _ hk⟩
    · exact ⟨hs, .run (.refl _ _) (.converting i hk)⟩

theorem answer [BEq V] (hs : s.Alike o m hidden shown s') {ρ : Role} {k k' : Stack V (.answer ρ)}
    (hk : k.Alike m hidden shown k') (a : Answer V ρ) :
    (s.answer k a).Alike o m hidden shown id (s'.answer k' a) := by
  cases hk with
  | validating i hk =>
    cases a with
    | ok v => exact hs.commit v hk
    | error c => exact hs.fail _ hk
  | reporting i e hk => exact ⟨hs, .updated _ hk⟩
  | converting i hk => exact hs.recompute i a hk
  | wrapping i hname convert hk => exact hs.wrap i hname convert a hk
  | listening hk =>
    cases a with
    | ok u => exact ⟨hs, .called _ hk⟩
    | error c => exact ⟨hs, .called _ hk⟩

theorem run [BEq V] (hs : s.Alike o m hidden shown s') {ρ : Role} {k k' : Stack V (.answer ρ)}
    (hk : k.Alike m hidden shown k') {script script' : Script V ρ}
    (hscript : script.Alike shown script') :
    (s.run k script).Alike o m hidden shown id (s'.run k' script') := by
  cases hscript with
  | stop a => exact hs.answer hk a
  | emit he hrest => exact ⟨hs.emit (.tells he), .run hrest hk⟩
  | perform op hnext => exact ⟨hs, .operate op (.script hnext hk)⟩

theorem afterCall (hs : s.Alike o m hidden shown s') (r : Except Error Unit)
    {k k' : Stack V .call} (hk : k.Alike m hidden shown k') :
    (s.afterCall r k).Alike o m hidden shown id (s'.afterCall r k') := by
  cases hk with
  | round hrest observed old new hk =>
    cases r with
    | ok u => exact ⟨hs, .round hrest observed old new hk⟩
    | error e => exact ⟨hs, .rounded _ hk⟩

theorem afterRound (hs : s.Alike o m hidden shown s') (r : Except Error Unit)
    {k k' : Stack V .round} (hk : k.Alike m hidden shown k') :
    (s.afterRound r k).Alike o m hidden shown id (s'.afterRound r k') := by
  cases hk with
  | notifying i j hk => exact ⟨(hs.release hk i).release hk j, .reply rfl (hk.resuming _)⟩
  | updating i old hk =>
    cases r with
    | ok u => exact ⟨hs, .updated _ hk⟩
    | error e => exact hs.fail e hk
  | recomputing i hk => exact ⟨hs.release hk i, .called r hk⟩

theorem afterUpdate (hs : s.Alike o m hidden shown s') (r : Except Error V)
    {k k' : Stack V .update} (hk : k.Alike m hidden shown k') :
    (s.afterUpdate r k).Alike o m hidden shown id (s'.afterUpdate r k') := by
  cases hk with
  | setting i hk => exact ⟨hs.release hk i, .reply rfl (hk.resuming _)⟩
  | following i hk => exact ⟨hs.release hk i, .called _ hk⟩

/-- An operation that may run callbacks begins. -/
theorem operate [BEq V] (hs : s.Alike o m hidden shown s') {k k' : Stack V .reply}
    (hk : k.Alike m hidden shown k') {op : Op V} (hop : ∀ a, op ≠ .act a)
    (hnames : ∀ n ∈ op.names, n ∉ hidden) :
    (s.operate k op).Alike o m hidden shown id (s'.operate k' op) := by
  have hunknown : Config.Alike o m hidden shown id ⟨s, .reply .unknownName k⟩
      ⟨s', .reply .unknownName k'⟩ := ⟨hs, .reply rfl (hk.resuming _)⟩
  cases op with
  | act a => exact absurd rfl (hop a)
  | set name v =>
    have hname := hs.world.find?_same (hnames name (by simp [Op.names])) (Handle.property?_shift m)
    simp only [State.operate, hname, hs.world.property?]
    split
    · exact hunknown
    · split
      · exact hunknown
      · split
        · exact ⟨hs, .reply rfl (hk.resuming _)⟩
        · exact hs.update _ v (.setting _ hk)
  | notify name observed old new =>
    have hname := hs.world.find?_same (hnames name (by simp [Op.names])) (Handle.set?_shift m)
    have hobserved := hs.world.find?_same (hnames observed (by simp [Op.names]))
      (Handle.observable?_shift m)
    simp only [State.operate, hname, hobserved]
    split
    · exact hunknown
    · split
      · exact hunknown
      · exact hs.announce _ old new (.notifying _ _ hk)
  | wrap name as convert =>
    have hname := hs.world.find?_same (hnames name (by simp [Op.names]))
      (Handle.observable?_shift m)
    simp only [State.operate, hname, hs.world.value?]
    split
    · exact hunknown
    · split
      · exact hunknown
      · exact ⟨hs, .run (.refl _ _) (.wrapping _ (hnames as (by simp [Op.names])) convert hk)⟩

end State.Alike

/-! ## Steps -/

namespace Config

variable [BEq V]

/-- The reply to the next step, if it is one that measures the list of `o`. -/
def shown? (o : Id) (c : Config V) : Option (Reply V) :=
  match c.focus with
  | .operate (.act a) k =>
    if c.state.world.measured? a = some o then some (c.state.world.act k.holds a).reply else none
  | _ => none

/-- A reply to the next step, where `o` has one more observer. -/
def retold (o : Id) (c : Config V) (r : Reply V) : Reply V :=
  if (c.shown? o).isSome then r.more else r

/-- If a callback is about to measure the list of `o`, it goes on alike when it is shown one
listener more. -/
def Indifferent (o : Id) (c : Config V) : Prop :=
  ∀ {r : Reply V}, c.shown? o = some r →
    ∀ {ρ : Role} {op : Op V} {next : Reply V → Script V ρ} {k : Stack V (.answer ρ)},
      c.focus = .operate op (.script next k) → (next r).Alike (fun x => x = r) (next r.more)

/-- The names that the operation which is about to be performed mentions. -/
def mentioned (c : Config V) : List String :=
  match c.focus with
  | .operate op _ => op.names
  | _ => []

/-- None of the names is mentioned. -/
def Avoids (names : List String) (c : Config V) : Prop := ∀ n ∈ c.mentioned, n ∉ names

/-- A round is about to call the listener. -/
def Visits (m : ListenerId) (c : Config V) : Prop :=
  ∃ (rest : List Registration) (observed : Id) (old new : V) (k : Stack V .round),
    c.focus = .round (.listener m :: rest) observed old new k

theorem retold_eq_id {o : Id} {c : Config V} (hc : c.shown? o = none) : c.retold o = id := by
  funext r
  simp [retold, hc]

theorem retold_eq_more {o : Id} {c : Config V} {r : Reply V} (hc : c.shown? o = some r) :
    c.retold o = Reply.more := by
  funext x
  simp [retold, hc]

variable {o : Id} {m : ListenerId} {hidden : List String} {shown : Reply V → Prop}
  {f : Reply V → Reply V}

/-- What can be shown once a step is taken. -/
def WithShown (o : Id) (c : Config V) (shown : Reply V → Prop) (r : Reply V) : Prop :=
  shown r ∨ c.shown? o = some r

theorem Alike.act {s s' : State V} (hs : s.Alike o m hidden shown s') {k k' : Stack V .reply}
    (hk : k.Alike m hidden shown k') {a : Action V} (hsound : Sound ⟨s, .operate (.act a) k⟩)
    (hnames : ∀ n ∈ a.names, n ∉ hidden)
    (hindifferent : Indifferent o ⟨s, .operate (.act a) k⟩) :
    (s.operate k (.act a)).Alike o m hidden (WithShown o ⟨s, .operate (.act a) k⟩ shown)
      (retold o ⟨s, .operate (.act a) k⟩) (s'.operate k' (.act a)) := by
  have hshown : shown? o ⟨s, .operate (.act a) k⟩ = if s.world.measured? a = some o then
      some (s.world.act k.holds a).reply else none := rfl
  have hle : ∀ r, shown r → WithShown o ⟨s, .operate (.act a) k⟩ shown r := fun r hr => .inl hr
  have hlive : ∀ n i, s.world.find? n Handle.held? = some i → s.world.alive i = true :=
    fun n i hi => hsound.world.alive_of_listened hi
  have hmore : s.world.measured? a = some o →
      retold o ⟨s, .operate (.act a) k⟩ = Reply.more := fun h => by
    rw [if_pos h] at hshown
    exact retold_eq_more hshown
  have hsame : s.world.measured? a ≠ some o →
      retold o ⟨s, .operate (.act a) k⟩ = id := fun h => by
    rw [if_neg h] at hshown
    exact retold_eq_id hshown
  have heffect := hs.world.act k.holds hnames hlive hmore hsame
  simp only [State.operate, hk.holds, heffect.traces]
  refine ⟨⟨heffect.world, ?_⟩, .reply heffect.reply ?_⟩
  · refine List.rel_append (hs.mono hle).log ?_
    exact List.forall₂_same.2 fun e _ => .tells (.same e)
  · rw [heffect.reply]
    cases hk with
    | idle => exact .idle
    | @script ρ next next' k k' hnext hk =>
      refine .script ?_ (hk.mono hle)
      by_cases h : s.world.measured? a = some o
      · rw [if_pos h] at hshown
        rw [hmore h]
        have hgo := hindifferent hshown rfl
        refine (hgo.mono ?_).trans ((hnext _).mono hle)
        rintro r rfl
        exact .inr hshown
      · rw [hsame h]
        exact (hnext _).mono hle

/-- A step that both take keeps them alike. -/
theorem Alike.step {c c' d : Config V} (hc : c.Alike o m hidden shown f c') (hsound : c.Sound)
    (havoids : c.Avoids hidden) (hindifferent : c.Indifferent o) (hvisits : ¬ c'.Visits m)
    (hstep : c.step = some d) :
    ∃ d', c'.step = some d' ∧
      d.Alike o m hidden (WithShown o c shown) (c.retold o) d' := by
  obtain ⟨s, x⟩ := c
  obtain ⟨s', x'⟩ := c'
  obtain ⟨hs, hx⟩ := hc
  -- Only an action is told more; after any other step the first configuration was shown nothing.
  have quiet : ∀ {d'}, shown? o ⟨s, x⟩ = none → d.Alike o m hidden shown id d' →
      d.Alike o m hidden (WithShown o ⟨s, x⟩ shown) (retold o ⟨s, x⟩) d' := by
    intro d' hnone hd
    rw [retold_eq_id hnone]
    exact hd.mono fun r hr => .inl hr
  cases hx with
  | operate op hk =>
    cases hstep
    cases op with
    | act a => exact ⟨_, rfl, Alike.act hs hk hsound havoids hindifferent⟩
    | set name v =>
      exact ⟨_, rfl, quiet rfl (hs.operate hk (fun _ h => by cases h) havoids)⟩
    | notify name observed old new =>
      exact ⟨_, rfl, quiet rfl (hs.operate hk (fun _ h => by cases h) havoids)⟩
    | wrap name as convert =>
      exact ⟨_, rfl, quiet rfl (hs.operate hk (fun _ h => by cases h) havoids)⟩
  | reply hr hk =>
    cases hk with
    | idle => cases hstep
    | script hnext hk =>
      cases hstep
      exact ⟨_, rfl, quiet rfl ⟨hs, .run hnext hk⟩⟩
  | run hscript hk =>
    cases hstep
    exact ⟨_, rfl, quiet rfl (hs.run hk hscript)⟩
  | round hrest observed old new hk =>
    obtain ⟨rfl, rfl⟩ | ⟨rest, rfl, _⟩ | ⟨r, rest, rest', rfl, rfl, htail⟩ := hrest.cases
    · cases hstep
      exact ⟨_, rfl, quiet rfl ⟨hs, .rounded _ hk⟩⟩
    · exact absurd ⟨rest, observed, old, new, _, rfl⟩ hvisits
    · cases hstep
      exact ⟨_, rfl, quiet rfl (hs.call r observed old new (.round htail observed old new hk))⟩
  | called r hk =>
    cases hstep
    exact ⟨_, rfl, quiet rfl (hs.afterCall r hk)⟩
  | rounded r hk =>
    cases hstep
    exact ⟨_, rfl, quiet rfl (hs.afterRound r hk)⟩
  | updated r hk =>
    cases hstep
    exact ⟨_, rfl, quiet rfl (hs.afterUpdate r hk)⟩

/-- A call of the observer takes two steps, in which nothing happens but that it is sent the change.
-/
theorem Alike.visit {c c' : Config V} (hc : c.Alike o m hidden shown f c')
    {rest' : List Registration} {observed : Id} {old new : V} {k' : Stack V .round}
    (hfocus : c'.focus = .round (.listener m :: rest') observed old new k') :
    ∃ e' d', c'.step = some e' ∧ e'.step = some d' ∧
      c.state.Alike o m hidden shown e'.state ∧ c.Alike o m hidden shown f d' ∧
      d'.focus = .round rest' observed old new k' := by
  obtain ⟨s, x⟩ := c
  obtain ⟨s', x'⟩ := c'
  obtain ⟨hs, hx⟩ := hc
  cases hfocus
  obtain ⟨sent, taken, hm⟩ := hs.world.channel
  have hstep : Config.step ⟨s', .round (.listener m :: rest') observed old new k'⟩ =
      some ⟨{ s' with world := s'.world.alterListener m (Listener.send ⟨old, new⟩) },
        .called (.ok ()) (.round rest' observed old new k')⟩ := by
    simp [Config.step, State.call, hm]
  have hsent : s.Alike o m hidden shown
      { s' with world := s'.world.alterListener m (Listener.send ⟨old, new⟩) } :=
    ⟨hs.world.send ⟨old, new⟩, hs.log⟩
  refine ⟨_, _, hstep, rfl, hsent, ?_, rfl⟩
  cases hx with
  | round hrest _ _ _ hk =>
    refine ⟨hsent, .round ?_ observed old new hk⟩
    unfold Joined at hrest ⊢
    rw [List.filter_cons_of_neg (by simp)] at hrest
    exact hrest

end Config

end Observable
