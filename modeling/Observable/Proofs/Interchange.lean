import Observable.Proofs.FirstObserver
import Observable.Proofs.Handles
import Observable.Proofs.Interference
import Observable.Proofs.Lifecycle

/-!
# Runs through other handles

A program is compared with one in which names have been replaced, in the operations that it performs
from outside and, at any depth, in callbacks. As long as every name that an operation uses denotes
the same property as the name in its place (`Config.Exchanges`), the second program goes through
moments like those of the first, one for each: the same operations begin and have the same replies,
the same events happen, and all objects have the same values, sources, registrations and lifetimes
(`Config.Resembles`).

What carries the comparison is that the same frames wait and the same is going on, up to names
(`Config.Renamed`); every step keeps this (`Config.Renamed.step`). A property that is bound through
a view follows the property behind it, whatever becomes of the view (`Config.BoundThrough`).
-/

namespace Observable

variable {V : Type}

/-! ## What may differ -/

/-- The same state with other names in its callbacks and in what they tell of themselves. -/
structure State.Renamed (s s' : State V) : Prop where
  world : s.world.Renamed s'.world
  log : List.Forall₂ Event.Renamed s.log s'.log

namespace Stack

/-- The same frames wait, with other names in the scripts that go on. -/
inductive Renamed : {a : Awaits} → Stack V a → Stack V a → Prop
  | idle : Renamed .idle .idle
  | script {ρ : Role} {next next' : Reply V → Script V ρ} {k k' : Stack V (.answer ρ)}
      (hnext : ∀ r, (next r).Renamed (next' r)) (hk : Renamed k k') :
    Renamed (.script next k) (.script next' k')
  | setting (i : Id) {k k' : Stack V .reply} (hk : Renamed k k') :
    Renamed (.setting i k) (.setting i k')
  | following (i : Id) {k k' : Stack V .call} (hk : Renamed k k') :
    Renamed (.following i k) (.following i k')
  | validating (i : Id) {k k' : Stack V .update} (hk : Renamed k k') :
    Renamed (.validating i k) (.validating i k')
  | reporting (i : Id) (e : Error) {k k' : Stack V .update} (hk : Renamed k k') :
    Renamed (.reporting i e k) (.reporting i e k')
  | converting (i : Id) {k k' : Stack V .call} (hk : Renamed k k') :
    Renamed (.converting i k) (.converting i k')
  | wrapping (i : Id) (name : String) {convert convert' : V → Script V .converter}
      (hconvert : ∀ v, (convert v).Renamed (convert' v)) {k k' : Stack V .reply}
      (hk : Renamed k k') : Renamed (.wrapping i name convert k) (.wrapping i name convert' k')
  | listening {k k' : Stack V .call} (hk : Renamed k k') : Renamed (.listening k) (.listening k')
  | round (rest : List Registration) (observed : Id) (old new : V) {k k' : Stack V .round}
      (hk : Renamed k k') :
    Renamed (.round rest observed old new k) (.round rest observed old new k')
  | notifying (i j : Id) {k k' : Stack V .reply} (hk : Renamed k k') :
    Renamed (.notifying i j k) (.notifying i j k')
  | updating (i : Id) (old : V) {k k' : Stack V .update} (hk : Renamed k k') :
    Renamed (.updating i old k) (.updating i old k')
  | recomputing (i : Id) {k k' : Stack V .call} (hk : Renamed k k') :
    Renamed (.recomputing i k) (.recomputing i k')

namespace Renamed

theorem holds {a : Awaits} {k k' : Stack V a} (hk : k.Renamed k') : k'.holds = k.holds := by
  induction hk with
  | idle => rfl
  | _ => simp_all [Stack.holds]

theorem depth {a : Awaits} {k k' : Stack V a} (hk : k.Renamed k') : k'.depth = k.depth := by
  unfold Stack.depth
  induction hk with
  | idle => rfl
  | _ => simp_all [tails]

theorem owner {k k' : Stack V .round} (hk : k.Renamed k') : k'.owner = k.owner := by
  cases hk <;> rfl

theorem updated {k k' : Stack V .update} (hk : k.Renamed k') : k'.updated = k.updated := by
  cases hk <;> rfl

end Renamed

end Stack

/-- The same is going on, with other names in what is performed and run. -/
inductive Focus.Renamed : Focus V → Focus V → Prop
  | operate {op op' : Op V} (hop : op.Renamed op') {k k' : Stack V .reply} (hk : k.Renamed k') :
    Renamed (.operate op k) (.operate op' k')
  | reply (r : Reply V) {k k' : Stack V .reply} (hk : k.Renamed k') :
    Renamed (.reply r k) (.reply r k')
  | run {ρ : Role} {script script' : Script V ρ} (hscript : script.Renamed script')
      {k k' : Stack V (.answer ρ)} (hk : k.Renamed k') : Renamed (.run script k) (.run script' k')
  | round (rest : List Registration) (observed : Id) (old new : V) {k k' : Stack V .round}
      (hk : k.Renamed k') :
    Renamed (.round rest observed old new k) (.round rest observed old new k')
  | called (r : Except Error Unit) {k k' : Stack V .call} (hk : k.Renamed k') :
    Renamed (.called r k) (.called r k')
  | rounded (r : Except Error Unit) {k k' : Stack V .round} (hk : k.Renamed k') :
    Renamed (.rounded r k) (.rounded r k')
  | updated (r : Except Error V) {k k' : Stack V .update} (hk : k.Renamed k') :
    Renamed (.updated r k) (.updated r k')

structure Config.Renamed (c c' : Config V) : Prop where
  state : c.state.Renamed c'.state
  focus : c.focus.Renamed c'.focus

/-! ## What the rules do -/

namespace State.Renamed

variable {s s' : State V}

theorem withWorld (hs : s.Renamed s') {w w' : World V} (hw : w.Renamed w') :
    State.Renamed { s with world := w } { s' with world := w' } :=
  ⟨hw, hs.log⟩

theorem emit (hs : s.Renamed s') {e e' : Event V} (he : e.Renamed e') :
    (s.emit e).Renamed (s'.emit e') :=
  ⟨hs.world, List.rel_append hs.log (.cons he .nil)⟩

theorem release (hs : s.Renamed s') {a : Awaits} {k k' : Stack V a} (hk : k.Renamed k') (i : Id) :
    (s.release k i).Renamed (s'.release k' i) := by
  unfold State.release
  rw [hk.holds]
  exact hs.withWorld (hs.world.release _ i)

theorem announce (hs : s.Renamed s') (observed : Id) (old new : V) {k k' : Stack V .round}
    (hk : k.Renamed k') :
    (s.announce observed old new k).Renamed (s'.announce observed old new k') := by
  unfold State.announce
  rw [hk.owner, hs.world.registrations]
  exact ⟨hs.emit (.same _), .round _ observed old new hk⟩

theorem update (hs : s.Renamed s') {p p' : Property V} (hp : p.Renamed p') (v : V)
    {k k' : Stack V .update} (hk : k.Renamed k') :
    (s.update p v k).Renamed (s'.update p' v k') := by
  unfold State.update
  rw [hk.updated]
  exact ⟨hs, .run (hp.validate v) (.validating _ hk)⟩

theorem fail (hs : s.Renamed s') (e : Error) {k k' : Stack V .update} (hk : k.Renamed k') :
    (s.fail e k).Renamed (s'.fail e k') := by
  unfold State.fail
  rw [hk.updated]
  obtain ⟨h, h'⟩ | ⟨report, report', h, h', hreport⟩ :=
    none_or_some_of_rel (rel_bind (hs.world.property? k.updated) fun _ _ hp => hp.report)
  · rw [h, h']
    exact ⟨hs, .updated _ hk⟩
  · rw [h, h']
    exact ⟨hs, .run (hreport e) (.reporting _ e hk)⟩

theorem commit [BEq V] (hs : s.Renamed s') (v : V) {k k' : Stack V .update} (hk : k.Renamed k') :
    (s.commit v k).Renamed (s'.commit v k') := by
  unfold State.commit
  rw [hk.updated, hs.world.value?]
  split
  · exact ⟨hs, .updated _ hk⟩
  · split
    · exact ⟨hs, .updated _ hk⟩
    · exact (hs.withWorld (hs.world.store _ v)).announce _ _ _ (.updating _ _ hk)

theorem recompute (hs : s.Renamed s') (i : Id) (v : V) {k k' : Stack V .call}
    (hk : k.Renamed k') : (s.recompute i v k).Renamed (s'.recompute i v k') := by
  unfold State.recompute
  rw [hs.world.value?]
  split
  · exact ⟨hs.release hk i, .called _ hk⟩
  · exact (hs.withWorld (hs.world.store i v)).announce _ _ _ (.recomputing i hk)

theorem wrap (hs : s.Renamed s') (source : Id) (name : String)
    {convert convert' : V → Script V .converter} (hconvert : ∀ v, (convert v).Renamed (convert' v))
    (v : V) {k k' : Stack V .reply} (hk : k.Renamed k') :
    (s.wrap source name convert v k).Renamed (s'.wrap source name convert' v k') := by
  have hbinding : Body.Renamed (.binding ⟨v, convert, source⟩) (.binding ⟨v, convert', source⟩) :=
    .binding ⟨rfl, hconvert, rfl⟩
  have hworld := ((hs.world.register source (.derived s.world.objects.size)).create
    hbinding).assign (source :: k.holds) name (.binding s.world.objects.size)
  unfold State.wrap
  rw [hk.holds, hs.world.size]
  refine ⟨State.Renamed.release ?_ hk source, .reply _ hk⟩
  exact (hs.withWorld hworld).emit (.same _)

theorem call (hs : s.Renamed s') (r : Registration) (observed : Id) (old new : V)
    {k k' : Stack V .call} (hk : k.Renamed k') :
    (s.call r observed old new k).Renamed (s'.call r observed old new k') := by
  cases r with
  | listener l =>
    simp only [State.call, hs.world.value?]
    obtain ⟨h, h'⟩ | ⟨x, x', h, h', hx⟩ := none_or_some_of_rel (hs.world.listeners l)
    · rw [h, h']
      exact ⟨hs, .called _ hk⟩
    · rw [h, h']
      cases hx with
      | callback calls hbody =>
        exact ⟨hs.withWorld (hs.world.alterListener l fun _ _ h => h.counted),
          .run (hbody _) (.listening hk)⟩
      | channel sent taken =>
        exact ⟨hs.withWorld (hs.world.alterListener l fun _ _ h => h.send _), .called _ hk⟩
  | bound i =>
    simp only [State.call]
    obtain ⟨h, h'⟩ | ⟨p, p', h, h', hp⟩ := none_or_some_of_rel (hs.world.property? i)
    · rw [h, h']
      exact ⟨hs, .called _ hk⟩
    · rw [h, h']
      exact hs.update hp new (.following i hk)
  | derived i =>
    simp only [State.call]
    obtain ⟨h, h'⟩ | ⟨b, b', h, h', hb⟩ := none_or_some_of_rel (hs.world.binding? i)
    · rw [h, h']
      exact ⟨hs, .called _ hk⟩
    · rw [h, h']
      exact ⟨hs, .run (hb.convert new) (.converting i hk)⟩

theorem answer [BEq V] (hs : s.Renamed s') {ρ : Role} {k k' : Stack V (.answer ρ)}
    (hk : k.Renamed k') (a : Answer V ρ) : (s.answer k a).Renamed (s'.answer k' a) := by
  cases hk with
  | validating i hk =>
    cases a with
    | ok v => exact hs.commit v hk
    | error c => exact hs.fail _ hk
  | reporting i e hk => exact ⟨hs, .updated _ hk⟩
  | converting i hk => exact hs.recompute i a hk
  | wrapping i name hconvert hk => exact hs.wrap i name hconvert a hk
  | listening hk =>
    cases a with
    | ok u => exact ⟨hs, .called _ hk⟩
    | error c => exact ⟨hs, .called _ hk⟩

theorem run [BEq V] (hs : s.Renamed s') {ρ : Role} {k k' : Stack V (.answer ρ)}
    (hk : k.Renamed k') {script script' : Script V ρ} (hscript : script.Renamed script') :
    (s.run k script).Renamed (s'.run k' script') := by
  cases hscript with
  | stop a => exact hs.answer hk a
  | emit he hrest => exact ⟨hs.emit he, .run hrest hk⟩
  | perform hop hnext => exact ⟨hs, .operate hop (.script hnext hk)⟩

theorem afterCall (hs : s.Renamed s') (r : Except Error Unit) {k k' : Stack V .call}
    (hk : k.Renamed k') : (s.afterCall r k).Renamed (s'.afterCall r k') := by
  cases hk with
  | round rest observed old new hk =>
    cases r with
    | ok u => exact ⟨hs, .round rest observed old new hk⟩
    | error e => exact ⟨hs, .rounded _ hk⟩

theorem afterRound (hs : s.Renamed s') (r : Except Error Unit) {k k' : Stack V .round}
    (hk : k.Renamed k') : (s.afterRound r k).Renamed (s'.afterRound r k') := by
  cases hk with
  | notifying i j hk => exact ⟨(hs.release hk i).release hk j, .reply _ hk⟩
  | updating i old hk =>
    cases r with
    | ok u => exact ⟨hs, .updated _ hk⟩
    | error e => exact hs.fail e hk
  | recomputing i hk => exact ⟨hs.release hk i, .called r hk⟩

theorem afterUpdate (hs : s.Renamed s') (r : Except Error V) {k k' : Stack V .update}
    (hk : k.Renamed k') : (s.afterUpdate r k).Renamed (s'.afterUpdate r k') := by
  cases hk with
  | setting i hk => exact ⟨hs.release hk i, .reply _ hk⟩
  | following i hk => exact ⟨hs.release hk i, .called _ hk⟩

/-! ### Operations -/

section

variable {k k' : Stack V .reply}

/-- What an action leads to. -/
theorem act (hs : s.Renamed s') (hk : k.Renamed k') {e e' : Effect V} (he : e.Renamed e') :
    Config.Renamed ⟨⟨e.world, s.log ++ e.traces.map .trace⟩, .reply e.reply k⟩
      ⟨⟨e'.world, s'.log ++ e'.traces.map .trace⟩, .reply e'.reply k'⟩ := by
  rw [he.traces, he.reply]
  refine ⟨⟨he.world, List.rel_append hs.log ?_⟩, .reply _ hk⟩
  exact List.forall₂_same.2 fun e _ => .same e

variable [BEq V]

theorem set (hs : s.Renamed s') (hk : k.Renamed k') (name : String) (v : V) :
    (s.operate k (.set name v)).Renamed (s'.operate k' (.set name v)) := by
  simp only [State.operate, hs.world.find?]
  split
  · exact ⟨hs, .reply _ hk⟩
  · next i _ =>
    obtain ⟨h, h'⟩ | ⟨p, p', h, h', hp⟩ := none_or_some_of_rel (hs.world.property? i)
    · rw [h, h']
      exact ⟨hs, .reply _ hk⟩
    · simp only [h, h', hp.source]
      split
      · exact ⟨hs, .reply _ hk⟩
      · exact hs.update hp v (.setting i hk)

theorem notify (hs : s.Renamed s') (hk : k.Renamed k') (name : String) {n n' : String}
    (hn : s.world.SameProperty n n') (old new : V) :
    (s.operate k (.notify name n old new)).Renamed (s'.operate k' (.notify name n' old new)) := by
  have hobserved : s.world.find? n' Handle.observable? = s.world.find? n Handle.observable? :=
    hn.find? fun _ => rfl
  simp only [State.operate, hs.world.find?, hobserved]
  split
  · exact ⟨hs, .reply _ hk⟩
  · split
    · exact ⟨hs, .reply _ hk⟩
    · exact hs.announce _ old new (.notifying _ _ hk)

theorem wrapping (hs : s.Renamed s') (hk : k.Renamed k') {n n' : String}
    (hn : s.world.SameProperty n n') (as : String) {convert convert' : V → Script V .converter}
    (hconvert : ∀ v, (convert v).Renamed (convert' v)) :
    (s.operate k (.wrap n as convert)).Renamed (s'.operate k' (.wrap n' as convert')) := by
  have hsource : s.world.find? n' Handle.observable? = s.world.find? n Handle.observable? :=
    hn.find? fun _ => rfl
  simp only [State.operate, hs.world.find?, hsource, hs.world.value?]
  split
  · exact ⟨hs, .reply _ hk⟩
  · split
    · exact ⟨hs, .reply _ hk⟩
    · exact ⟨hs, .run (hconvert _) (.wrapping _ as hconvert hk)⟩

/-- An operation begins in the same way with other names for the same properties. -/
theorem operate (hs : s.Renamed s') (hk : k.Renamed k') {op op' : Op V} (hop : op.Renamed op')
    (hnames : List.Forall₂ s.world.SameProperty op.handles op'.handles) :
    (s.operate k op).Renamed (s'.operate k' op') := by
  cases hop with
  | same =>
    cases op with
    | act a =>
      simp only [State.operate, hk.holds]
      exact hs.act hk (hs.world.act k.holds a)
    | set name v => exact hs.set hk name v
    | notify name n old new => exact hs.notify hk name (.inl rfl) old new
    | wrap n as convert => exact hs.wrapping hk (.inl rfl) as fun v => .refl _
  | @swapped a a' ha =>
    have heffect := hs.world.act k.holds a'
    rw [World.act_of_swapped ha hnames] at heffect
    simp only [State.operate, hk.holds]
    exact hs.act hk heffect
  | property name value hvalidate hreport =>
    simp only [State.operate, hk.holds]
    exact hs.act hk (hs.world.property k.holds name ⟨rfl, hvalidate, hreport, rfl⟩)
  | listener name hbody =>
    simp only [State.operate, hk.holds]
    exact hs.act hk (hs.world.listener k.holds name hbody)
  | notify name n n' old new =>
    cases hnames with
    | cons hn _ => exact hs.notify hk name hn old new
  | wrap n n' as hconvert =>
    cases hnames with
    | cons hn _ => exact hs.wrapping hk hn as hconvert

end

end State.Renamed

/-! ## Steps -/

namespace Config

/-- The names under which the next operation takes any handle of a property. -/
def handles (c : Config V) : List String :=
  match c.focus with
  | .operate op _ => op.handles
  | _ => []

/-- If an operation is about to be performed, its names and the names in their place denote the same
properties. -/
def Exchanges (c c' : Config V) : Prop :=
  List.Forall₂ c.state.world.SameProperty c.handles c'.handles

instance (c c' : Config V) : Decidable (c.Exchanges c') :=
  inferInstanceAs (Decidable (List.Forall₂ _ c.handles c'.handles))

theorem Renamed.step [BEq V] {c c' d : Config V} (hc : c.Renamed c') (hnames : c.Exchanges c')
    (hstep : c.step = some d) : ∃ d', c'.step = some d' ∧ d.Renamed d' := by
  obtain ⟨s, x⟩ := c
  obtain ⟨s', x'⟩ := c'
  obtain ⟨hs, hx⟩ := hc
  cases hx with
  | operate hop hk =>
    cases hstep
    exact ⟨_, rfl, hs.operate hk hop hnames⟩
  | reply r hk =>
    cases hk with
    | idle => cases hstep
    | script hnext hk =>
      cases hstep
      exact ⟨_, rfl, hs, .run (hnext r) hk⟩
  | run hscript hk =>
    cases hstep
    exact ⟨_, rfl, hs.run hk hscript⟩
  | round rest observed old new hk =>
    cases rest with
    | nil =>
      cases hstep
      exact ⟨_, rfl, hs, .rounded _ hk⟩
    | cons r rest =>
      cases hstep
      exact ⟨_, rfl, hs.call r observed old new (.round rest observed old new hk)⟩
  | called r hk =>
    cases hstep
    exact ⟨_, rfl, hs.afterCall r hk⟩
  | rounded r hk =>
    cases hstep
    exact ⟨_, rfl, hs.afterRound r hk⟩
  | updated r hk =>
    cases hstep
    exact ⟨_, rfl, hs.afterUpdate r hk⟩

/-- An operation that is performed from outside begins in the same way in both programs. -/
theorem Renamed.perform {c c' : Config V} (hc : c.Renamed c') {op op' : Op V}
    (hop : op.Renamed op') : (start c.state op).Renamed (start c'.state op') :=
  ⟨hc.state, .operate hop .idle⟩

theorem Renamed.isSome_reply? {c c' : Config V} (hc : c.Renamed c')
    (hreply : c.reply?.isSome = true) : c'.reply?.isSome = true := by
  obtain ⟨r, hr⟩ := isSome_reply?_iff.1 hreply
  have hfocus := hc.focus
  rw [hr] at hfocus
  obtain ⟨s', x'⟩ := c'
  cases hfocus with
  | reply r hk =>
    cases hk with
    | idle => rfl

/-! ## What is the same at every moment -/

/-- The operation that is about to be performed, and the number of frames that wait for it. -/
def performing? (c : Config V) : Option (Op V × Nat) :=
  match c.focus with
  | .operate op k => some (op, k.depth)
  | _ => none

/-- The reply that an operation has just had, and the number of frames that wait for it. -/
def answered? (c : Config V) : Option (Reply V × Nat) :=
  match c.focus with
  | .reply r k => some (r, k.depth)
  | _ => none

/-- Two moments at which everything is the same that a program can learn. -/
structure Resembles (c c' : Config V) : Prop where
  names : c'.state.world.names = c.state.world.names
  size : c'.state.world.objects.size = c.state.world.objects.size
  alive : ∀ i, c'.state.world.alive i = c.state.world.alive i
  value : ∀ i, c'.state.world.value? i = c.state.world.value? i
  bound : ∀ i, c'.state.world.isBound i = c.state.world.isBound i
  /-- What an object is bound to or made from, and under which registration. -/
  relation : ∀ i, c'.state.world.relation? i = c.state.world.relation? i
  registrations : ∀ i, c'.state.world.registrations i = c.state.world.registrations i
  /-- What a channel holds that has not been received. -/
  pending : ∀ l, (c'.state.world.listeners.get? l).map Listener.pending =
    (c.state.world.listeners.get? l).map Listener.pending
  log : List.Forall₂ Event.Renamed c.state.log c'.state.log
  /-- The same operation begins at the same depth. -/
  performing : Option.Rel (fun x x' => x.1.Renamed x'.1 ∧ x'.2 = x.2) c.performing? c'.performing?
  /-- The same reply is had at the same depth. -/
  answered : c'.answered? = c.answered?

theorem Renamed.resembles {c c' : Config V} (hc : c.Renamed c') : c.Resembles c' := by
  obtain ⟨s, x⟩ := c
  obtain ⟨s', x'⟩ := c'
  obtain ⟨⟨hworld, hlog⟩, hx⟩ := hc
  constructor
  case names => exact hworld.names
  case size => exact hworld.size
  case alive => exact hworld.alive
  case value => exact hworld.value?
  case bound => exact hworld.isBound
  case relation => exact hworld.relation?
  case registrations => exact hworld.registrations
  case pending =>
    intro l
    obtain ⟨h, h'⟩ | ⟨y, y', h, h', hy⟩ := none_or_some_of_rel (hworld.listeners l)
    · rw [h, h']
    · rw [h, h']
      exact congrArg some hy.pending
  case log => exact hlog
  case performing =>
    cases hx with
    | operate hop hk => exact .some ⟨hop, hk.depth⟩
    | _ => exact .none
  case answered =>
    cases hx with
    | reply r hk => simp only [answered?, hk.depth]
    | _ => rfl

/-! ## Whole runs -/

variable [BEq V]

/-- A program that performs the operations `ops` from outside, latest first, is at this moment after
`n` moves. -/
def ComesTo (ops : List (Op V)) (n : Nat) (c : Config V) : Prop :=
  ∃ past, Run (fun _ => True) past c ∧ past.length = n ∧ outside (c :: past) <:+ ops

theorem ComesTo.mono {ops ops' : List (Op V)} {n : Nat} {c : Config V} (hc : ComesTo ops n c)
    (hops : ops <:+ ops') : ComesTo ops' n c := by
  obtain ⟨past, hrun, hlength, hsuffix⟩ := hc
  exact ⟨past, hrun, hlength, hsuffix.trans hops⟩

/-- What is performed from outside decides every moment of a run. -/
theorem Run.eq_of_outside {allowed allowed' : Op V → Prop} {ops : List (Op V)}
    {past past' : List (Config V)} {c c' : Config V} (hrun : Run allowed past c)
    (hrun' : Run allowed' past' c') (hlength : past.length = past'.length)
    (hops : outside (c :: past) <:+ ops) (hops' : outside (c' :: past') <:+ ops) :
    c :: past = c' :: past' := by
  induction hrun generalizing past' c' with
  | @start op hop =>
    cases hrun' with
    | @start op' hop' =>
      have hsame := (List.suffix_of_suffix_length_le hops hops' (Nat.le_refl 1)).eq_of_length rfl
      obtain ⟨rfl, _⟩ := List.cons.inj hsame
      rfl
    | step | perform => cases hlength
  | @step past c d hrun hstep ih =>
    rw [outside_step hstep] at hops
    cases hrun' with
    | start => cases hlength
    | @step past' c' d' hrun' hstep' =>
      rw [outside_step hstep'] at hops'
      obtain ⟨rfl, rfl⟩ := List.cons.inj (ih hrun' (Nat.succ.inj hlength) hops hops')
      rw [Option.some.inj (hstep.symm.trans hstep')]
    | @perform past' c' op' hrun' hreply' hop' =>
      have hrest := (List.suffix_cons _ _).trans hops'
      obtain ⟨rfl, rfl⟩ := List.cons.inj (ih hrun' (Nat.succ.inj hlength) hops hrest)
      rw [(step_eq_none_iff _).2 hreply'] at hstep
      cases hstep
  | @perform past c op hrun hreply hop ih =>
    have hrest := (List.suffix_cons _ _).trans hops
    cases hrun' with
    | start => cases hlength
    | @step past' c' d' hrun' hstep' =>
      rw [outside_step hstep'] at hops'
      obtain ⟨rfl, rfl⟩ := List.cons.inj (ih hrun' (Nat.succ.inj hlength) hrest hops')
      rw [(step_eq_none_iff _).2 hreply] at hstep'
      cases hstep'
    | @perform past' c' op' hrun' hreply' hop' =>
      have hrest' := (List.suffix_cons _ _).trans hops'
      obtain ⟨rfl, rfl⟩ := List.cons.inj (ih hrun' (Nat.succ.inj hlength) hrest hrest')
      have hsame := (List.suffix_of_suffix_length_le hops hops' (Nat.le_refl _)).eq_of_length rfl
      obtain ⟨rfl, _⟩ := List.cons.inj hsame
      rfl

theorem ComesTo.eq {ops : List (Op V)} {n : Nat} {c c' : Config V} (hc : ComesTo ops n c)
    (hc' : ComesTo ops n c') : c = c' := by
  obtain ⟨past, hrun, hlength, hops⟩ := hc
  obtain ⟨past', hrun', hlength', hops'⟩ := hc'
  exact (List.cons.inj (hrun.eq_of_outside hrun' (hlength.trans hlength'.symm) hops hops')).1

/-- The second program goes through moments like those of the first. -/
theorem Run.renamed {allowed : Op V → Prop} {past : List (Config V)} {c : Config V}
    (hrun : Run allowed past c) {ops' : List (Op V)}
    (hops : List.Forall₂ Op.Renamed (outside (c :: past)) ops')
    (hnames : ∀ d before d', d :: before <:+ past → ComesTo ops' before.length d' →
      d.Exchanges d') :
    ∃ past' c', Run (fun _ => True) past' c' ∧ outside (c' :: past') = ops' ∧
      List.Forall₂ Renamed (c :: past) (c' :: past') := by
  induction hrun generalizing ops' with
  | @start op hop =>
    obtain ⟨op', _, hop', hnil, rfl⟩ := List.forall₂_cons_left_iff.1 hops
    cases hnil
    have hstart : Config.Renamed (Config.start {} op) (Config.start {} op') :=
      ⟨⟨.empty, .nil⟩, .operate hop' .idle⟩
    exact ⟨[], _, .start trivial, rfl, .cons hstart .nil⟩
  | @step past c d hrun hstep ih =>
    rw [outside_step hstep] at hops
    obtain ⟨past', c', hrun', houtside, hall⟩ := ih hops fun e before e' hbefore =>
      hnames e before e' (hbefore.trans (List.suffix_cons _ _))
    obtain ⟨hc, hpast⟩ := List.forall₂_cons.1 hall
    have hcomes : ComesTo ops' past.length c' :=
      ⟨past', hrun', hpast.length_eq.symm, houtside ▸ List.suffix_refl _⟩
    obtain ⟨d', hstep', hd⟩ := hc.step (hnames c past c' (List.suffix_refl _) hcomes) hstep
    refine ⟨c' :: past', d', hrun'.step hstep', ?_, .cons hd hall⟩
    rw [outside_step hstep']
    exact houtside
  | @perform past c op hrun hreply hop ih =>
    obtain ⟨op', ops', hop', hrest, rfl⟩ := List.forall₂_cons_left_iff.1 hops
    obtain ⟨past', c', hrun', houtside, hall⟩ := ih hrest fun e before e' hbefore hcomes =>
      hnames e before e' (hbefore.trans (List.suffix_cons _ _))
        (hcomes.mono (List.suffix_cons _ _))
    obtain ⟨hc, _⟩ := List.forall₂_cons.1 hall
    have hnext : Run (fun _ => True) (c' :: past') (Config.start c'.state op') :=
      hrun'.perform (hc.isSome_reply? hreply) trivial
    refine ⟨c' :: past', _, hnext, ?_, .cons (hc.perform hop') hall⟩
    rw [outside_perform, houtside]

/-! ## Bound through a view -/

/-- The property `i` follows `o`. -/
structure Follows (c : Config V) (i o : Id) : Prop where
  relation : c.state.world.relation? i = some (o, .bound i)
  registered : c.state.world.alive o = true →
    (c.state.world.registrations o).count (.bound i) = 1
  /-- Whatever is stored in `o` is announced to `i`, among others. -/
  announced : ∀ v, c.written? = some (o, v) → .bound i ∈ c.state.world.registrations o ∧
    ∃ d old k, c.step = some d ∧ d.focus = .round (c.state.world.registrations o) o old v k
  /-- What is announced to `i` is validated, as the beginning of an update. -/
  updated : ∀ rest old v k, c.focus = .round (.bound i :: rest) o old v k →
    ∃ p, c.state.world.property? i = some p ∧ c.step = some
      ⟨c.state, .run (p.validate v) (.validating i (.following i (.round rest o old v k)))⟩

theorem step_of_written? {c : Config V} {i : Id} {v : V} (hwritten : c.written? = some (i, v)) :
    ∃ d, c.step = some d := by
  obtain ⟨s, x⟩ := c
  obtain ⟨_, _, ⟨_, _, hfocus, _⟩ | ⟨_, hfocus⟩⟩ := written?_cases hwritten
  · cases hfocus
    exact ⟨_, rfl⟩
  · cases hfocus
    exact ⟨_, rfl⟩

/-- What has a source follows it. -/
theorem Sound.follows {c : Config V} (hc : c.Sound) {i o : Id}
    (hrelation : c.state.world.relation? i = some (o, .bound i)) : c.Follows i o := by
  have hlinked := hc.world.linked
  constructor
  case relation => exact hrelation
  case registered =>
    intro halive
    rw [hlinked.count o (.bound i) i rfl, if_pos ⟨halive, hrelation⟩]
  case announced =>
    intro v hwritten
    obtain ⟨d, hstep⟩ := step_of_written? hwritten
    obtain ⟨old, k, hold, _, hround, _⟩ := announced_of_written? hstep hwritten
    have hmem := hlinked.mem_of_relation? (World.alive_of_value? hold) hrelation
    exact ⟨hmem, d, old, k, hstep, hround⟩
  case updated =>
    intro rest old v k hfocus
    obtain ⟨s, x⟩ := c
    cases hfocus
    rcases World.dependent_of_relation? hrelation with ⟨p, hp, _⟩ | ⟨_, _, _, hderived⟩
    · refine ⟨p, hp, ?_⟩
      simp only [step, State.call, hp]
      rfl
    · cases hderived

/-- From the moment of binding on, a property has its source until it is released. -/
theorem Run.relation?_of_rebinding {allowed : Op V → Prop} {later before : List (Config V)}
    {c d : Config V} (hrun : Run allowed (later ++ d :: before) c) {i o : Id}
    (hbound : d.rebinding? = some (i, some o))
    (hkept : ∀ e ∈ later, e.rebinding? ≠ some (i, none))
    (halive : c.state.world.alive i = true) :
    c.state.world.relation? i = some (o, .bound i) := by
  have hfirst {past : List (Config V)} {e : Config V} (hrun : Run allowed (d :: past) e) :
      e.state.world.relation? i = some (o, .bound i) := by
    cases hrun with
    | step hrun hstep =>
      obtain ⟨effect, k, rfl, hrebinding⟩ := hrun.sound.rebinding hstep hbound
      exact hrebinding.relation?
    | perform _ hreply _ =>
      obtain ⟨r, hfocus⟩ := isSome_reply?_iff.1 hreply
      rw [rebinding?, hfocus] at hbound
      cases hbound
  rcases List.eq_nil_or_concat later with rfl | ⟨later, e, rfl⟩
  · exact hfirst hrun
  · rw [List.concat_eq_append] at hkept
    rw [List.concat_eq_append, List.append_assoc, List.singleton_append] at hrun
    exact (hrun.relation?_kept (hfirst hrun.of_append) hkept).2 halive

/-- What binding through a view comes to. -/
structure BoundThrough (past : List (Config V)) (c : Config V) : Prop where
  /-- A property is not bound to itself, under whatever name. -/
  self : ∀ name target k i, c.focus = .operate (.act (.bind name target)) k →
    c.state.world.find? name Handle.property? = some i →
    c.state.world.find? target Handle.readable? = some i →
    c.step = some ⟨c.state, .reply (.failed .selfBinding) k⟩
  /-- Another property is bound to, not the view of it. -/
  bind : ∀ name target k i o, c.focus = .operate (.act (.bind name target)) k →
    c.state.world.find? name Handle.property? = some i →
    c.state.world.find? target Handle.readable? = some o → i ≠ o →
    c.state.world.isBound i = false →
    c.rebinding? = some (i, some o) ∧ ∃ s, c.step = some ⟨s, .reply (.done .unit) k⟩
  /-- It is followed until the property is released or dies, whatever becomes of the view. -/
  follows : ∀ later d before i o, past = later ++ d :: before → d.rebinding? = some (i, some o) →
    (∀ e ∈ later, e.rebinding? ≠ some (i, none)) → c.state.world.alive i = true → c.Follows i o

theorem Run.boundThrough {allowed : Op V → Prop} {past : List (Config V)} {c : Config V}
    (hrun : Run allowed past c) : c.BoundThrough past := by
  have hproperty {name : String} {i : Id}
      (hname : c.state.world.find? name Handle.property? = some i) :
      ∃ p, c.state.world.property? i = some p :=
    World.shape?_eq_property_iff.1 (hrun.sound.world.shape?_of_property hname)
  constructor
  case self =>
    intro name target k i hfocus hname htarget
    obtain ⟨p, hp⟩ := hproperty hname
    have htarget := World.find?_observable?_of_readable? htarget
    obtain ⟨s, hstep, hsame, _⟩ := step_bind hfocus hname htarget hp
    rw [hstep, if_pos rfl, hsame (.inl rfl)]
  case bind =>
    intro name target k i o hfocus hname htarget hne hfree
    obtain ⟨p, hp⟩ := hproperty hname
    rw [World.isBound_of_property? hp] at hfree
    have htarget := World.find?_observable?_of_readable? htarget
    constructor
    · have hnone : p.source = none := by simpa using hfree
      rw [rebinding?, hfocus]
      exact World.rebinding?_of_bind _ hname htarget hp hne hnone
    · obtain ⟨s, hstep, _⟩ := step_bind hfocus hname htarget hp
      rw [if_neg hne, hfree] at hstep
      exact ⟨s, hstep⟩
  case follows =>
    intro later d before i o hpast hbound hkept halive
    subst hpast
    exact hrun.sound.follows (hrun.relation?_of_rebinding hbound hkept halive)

/-! ## Interchangeable handles -/

/-- A run in which other names are used shows what the program does that uses them. -/
theorem Run.exchanges {allowed : Op V → Prop} {past past' : List (Config V)} {c' : Config V}
    (hrun' : Run allowed past' c') (hall : List.Forall₂ Exchanges past past') {d : Config V}
    {before : List (Config V)} {d' : Config V} (hd : d :: before <:+ past)
    (hcomes : ComesTo (outside (c' :: past')) before.length d') : d.Exchanges d' := by
  obtain ⟨later, rfl⟩ := hd
  have hdrop := List.forall₂_drop later.length hall
  rw [List.drop_left] at hdrop
  obtain ⟨e', before', he, hbefore, hrest⟩ := List.forall₂_cons_left_iff.1 hdrop
  rw [← List.take_append_drop later.length past', hrest] at hrun'
  have hsuffix : outside (e' :: before') <:+ outside (c' :: past') := by
    rw [← hrest]
    exact ((List.drop_suffix _ _).trans (List.suffix_cons _ _)).filterMap _
  have hat : ComesTo (outside (c' :: past')) before.length e' :=
    ⟨before', hrun'.of_append.any, hbefore.length_eq.symm, hsuffix⟩
  rw [hcomes.eq hat]
  exact he

/-- In what a program performs, from outside and in callbacks, other names may stand for a property
wherever they denote it, directly or as a view, when the operation is about to be performed. The
program with the other names goes through moments like those of the first one. A property that is
bound through a view follows the property behind it for as long as it is not released, also when the
view is gone, and no property is bound to a view of its own. -/
theorem Run.interchangeable {allowed : Op V → Prop} {past : List (Config V)} {c : Config V}
    (hrun : Run allowed past c) {ops' : List (Op V)}
    (hops : List.Forall₂ Op.Renamed (outside (c :: past)) ops')
    (hnames : ∀ d before d', d :: before <:+ past → ComesTo ops' before.length d' →
      d.Exchanges d') :
    (∃ past' c', Run (fun _ => True) past' c' ∧ outside (c' :: past') = ops' ∧
      List.Forall₂ Resembles (c :: past) (c' :: past')) ∧ c.BoundThrough past := by
  constructor
  · obtain ⟨past', c', hrun', houtside, hall⟩ := hrun.renamed hops hnames
    exact ⟨past', c', hrun', houtside, hall.imp fun _ _ hc => hc.resembles⟩
  · exact hrun.boundThrough

/-- A property is observed by a listener that reads it, and another one is bound to a view of it.
The other one still follows when the view is gone, and the property cannot be bound to a view of
that view. The second program uses other names, also in the listener. -/
theorem interchangeable_views : ∃ (past : List (Config Bool)) (c : Config Bool)
    (ops' : List (Op Bool)), Run (fun _ => True) past c ∧
      List.Forall₂ Op.Renamed (outside (c :: past)) ops' ∧
      (∀ d before d', d :: before <:+ past → ComesTo ops' before.length d' → d.Exchanges d') ∧
      c.state.world.names.find? "v" = none ∧ c.state.world.value? 1 = some true ∧
      c.reply? = some (.failed .selfBinding) ∧
      (∃ past' c', Run (fun _ => True) past' c' ∧ outside (c' :: past') = ops' ∧
        List.Forall₂ Resembles (c :: past) (c' :: past')) ∧ c.BoundThrough past := by
  have hp : Run (fun _ => True) _
      (start {} (.act (.property "p" false (fun v => .stop (.ok v)) none))) := .start trivial
  have hq : Run (fun _ => True) _
      (start _ (.act (.property "q" false (fun v => .stop (.ok v)) none))) :=
    (hp.step rfl).perform rfl trivial
  have hv : Run (fun _ => True) _ (start _ (.act (.view "p" "v"))) :=
    (hq.step rfl).perform rfl trivial
  -- From here on the two programs use different names.
  have hw : Run (fun _ => True) _ (start _ (.act (.view "v" "w"))) :=
    (hv.step rfl).perform rfl trivial
  have hw' : Run (fun _ => True) _ (start _ (.act (.view "p" "w"))) :=
    (hv.step rfl).perform rfl trivial
  have hl : Run (fun _ => True) _ (start _ (.act (.listener "l" fun _ =>
      .perform (.act (.get "p")) fun r => .emit (.performed "get p" r) (.stop (.ok ()))))) :=
    (hw.step rfl).perform rfl trivial
  have hl' : Run (fun _ => True) _ (start _ (.act (.listener "l" fun _ =>
      .perform (.act (.get "w")) fun r => .emit (.performed "get w" r) (.stop (.ok ()))))) :=
    (hw'.step rfl).perform rfl trivial
  have hadd : Run (fun _ => True) _ (start _ (.act (.add "p" "l"))) :=
    (hl.step rfl).perform rfl trivial
  have hadd' : Run (fun _ => True) _ (start _ (.act (.add "v" "l"))) :=
    (hl'.step rfl).perform rfl trivial
  have hbind : Run (fun _ => True) _ (start _ (.act (.bind "q" "v"))) :=
    (hadd.step rfl).perform rfl trivial
  have hbind' : Run (fun _ => True) _ (start _ (.act (.bind "q" "p"))) :=
    (hadd'.step rfl).perform rfl trivial
  have hdrop : Run (fun _ => True) _ (start _ (.act (.drop "v"))) :=
    (hbind.step rfl).perform rfl trivial
  have hdrop' : Run (fun _ => True) _ (start _ (.act (.drop "v"))) :=
    (hbind'.step rfl).perform rfl trivial
  have hset : Run (fun _ => True) _ (start _ (.set "p" true)) :=
    (hdrop.step rfl).perform rfl trivial
  have hset' : Run (fun _ => True) _ (start _ (.set "p" true)) :=
    (hdrop'.step rfl).perform rfl trivial
  have hself : Run (fun _ => True) _ (start _ (.act (.bind "p" "w"))) :=
    (hset.iterate 24).perform rfl trivial
  have hself' : Run (fun _ => True) _ (start _ (.act (.bind "p" "p"))) :=
    (hset'.iterate 24).perform rfl trivial
  have hlast := hself.step rfl
  have hlast' := hself'.step rfl
  refine ⟨_, _, [.act (.bind "p" "p"), .set "p" true, .act (.drop "v"), .act (.bind "q" "p"),
    .act (.add "v" "l"), .act (.listener "l" fun _ =>
      .perform (.act (.get "w")) fun r => .emit (.performed "get w" r) (.stop (.ok ()))),
    .act (.view "p" "w"), .act (.view "p" "v"),
    .act (.property "q" false (fun v => .stop (.ok v)) none),
    .act (.property "p" false (fun v => .stop (.ok v)) none)], hlast, ?hops, ?hnames, rfl, rfl, rfl,
    hlast.interchangeable ?hops ?hnames⟩
  case hops =>
    refine .cons (.swapped (.bind "p" "w" "p")) (.cons (.same _) (.cons (.same _)
      (.cons (.swapped (.bind "q" "v" "p")) (.cons (.swapped (.add "p" "v" "l"))
        (.cons (.listener "l" fun _ => ?_) (.cons (.swapped (.view "v" "p" "w"))
          (.cons (.same _) (.cons (.same _) (.cons (.same _) .nil)))))))))
    exact .perform (.swapped (.get "p" "w")) fun r =>
      .emit (.performed "get p" "get w" r) (.stop _)
  case hnames => exact fun d before d' => hlast'.exchanges (by decide)

end Config

end Observable
