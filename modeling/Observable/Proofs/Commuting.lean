import Observable.Proofs.Locality
import Observable.Proofs.Visits

/-!
# Sets on different roots commute

In a run whose callbacks perform no operation and depend on nothing but their arguments, two free
properties can be set in either order (`Config.Run.set_comm`): each call returns the same, with the
same events in the same order, and in the end every object is the same. A walk is local to the tree
below the property that is set (`State.local_spread`), and the trees below two free properties are
disjoint, whatever built them. Only a listener that is registered in both trees can tell the order.
-/

namespace Observable

variable {V : Type}

/-! ## Passive runs -/

/-- An operation that is given only callbacks that perform no operation and depend on nothing but
what they are called with. -/
def Op.IsPassive : Op V → Prop
  | .act (.listener _ body) => (Listener.callback 0 body).IsPassive
  | op => op.IsQuiet

theorem Op.IsPassive.isQuiet {op : Op V} (hop : op.IsPassive) : op.IsQuiet := by
  cases op with
  | act a =>
    cases a with
    | listener name body => exact hop.1
    | _ => exact hop
  | _ => exact hop

namespace World.Attentive

variable {w w' : World V}

theorem of_listeners (hw : w.Attentive) (hlisteners : w'.listeners = w.listeners) :
    w'.Attentive := by
  intro l x hx
  rw [hlisteners] at hx
  exact hw l x hx

theorem createListener (hw : w.Attentive) {x : Listener V} (hx : x.IsPassive) :
    (w.createListener x).Attentive := by
  intro l y hy
  have hget : (w.listeners.push x).get? l = some y := hy
  rw [Table.get?_push] at hget
  split at hget
  · cases hget
    exact hx
  · exact hw l y hget

theorem alterListener (hw : w.Attentive) (m : ListenerId) {f : Listener V → Listener V}
    (hf : ∀ x, (f x).body? = x.body?) : (w.alterListener m f).Attentive := by
  refine hw.congr fun l => ?_
  show ((w.listeners.modify m f).get? l).map Listener.body? = _
  rw [Table.get?_modify]
  split
  · rw [Option.map_map]
    cases w.listeners.get? l <;> simp [hf]
  · rfl

theorem edit {held : List Id} {a : Action V} (hw : w.Attentive) (ha : (Op.act a).IsPassive)
    (hedit : w.Edit held a w') : w'.Attentive := by
  cases hedit with
  | read | bind | unbind | add | remove => exact hw
  | property | listenerSet | view | copy | weak => exact hw.of_listeners (listeners_assign ..)
  | listener name body =>
    exact (hw.createListener (x := .callback 0 body) ha).of_listeners (listeners_assign ..)
  | channel name receiver =>
    have hcreated := hw.createListener (x := .channel [] 0) trivial
    exact (hcreated.of_listeners (listeners_assign ..)).of_listeners (listeners_assign ..)
  | drop name => exact hw.of_listeners (listeners_forget ..)
  | drain receiver asText l => exact hw.alterListener l fun x => by cases x <;> rfl

end World.Attentive

namespace Config

variable [BEq V]

/-- In a quiet run, what is performed is performed from outside, so it is allowed. -/
theorem Run.allowed_of_operate {allowed : Op V → Prop} {past : List (Config V)} {c : Config V}
    (hrun : Run allowed past c) (hquiet : ∀ op, allowed op → op.IsQuiet) {op : Op V}
    {k : Stack V .reply} (hfocus : c.focus = .operate op k) : allowed op := by
  cases hrun with
  | start hop =>
    cases hfocus
    exact hop
  | perform hrun hreply hop =>
    cases hfocus
    exact hop
  | step hrun hstep =>
    have hpassive := (hrun.mono hquiet).quiet.focus
    cases Transition.of_step hstep with
    | perform => exact absurd hpassive.1 Script.not_isPassive_perform
    | reject | announceFailed =>
      exact absurd hfocus (State.fail_cases (P := fun d => d.focus ≠ .operate op k)
        (fun h => by cases h) fun _ _ _ _ h => by cases h)
    | _ => cases hfocus

theorem Effect.attentive {c : Config V} {w : World V} (heffect : c.Effect w)
    (hc : c.state.world.Attentive)
    (hop : ∀ op k, c.focus = .operate op k → op.IsPassive) : w.Attentive := by
  cases heffect with
  | same | store => exact hc
  | edit hfocus hedit => exact hc.edit (hop _ _ hfocus) hedit
  | count => exact hc.alterListener _ fun x => by cases x <;> rfl
  | send => exact hc.alterListener _ fun x => by cases x <;> rfl
  | release _ hlisteners _ | wrap _ _ hlisteners _ => exact hc.of_listeners hlisteners

theorem Run.attentive {past : List (Config V)} {c : Config V} (hrun : Run Op.IsPassive past c) :
    c.state.world.Attentive := by
  induction hrun with
  | start hop =>
    intro l x hx
    cases hx
  | step hrun hstep ih =>
    exact (Effect.of_transition (.of_step hstep)).attentive ih fun op k hfocus =>
      hrun.allowed_of_operate (fun _ => Op.IsPassive.isQuiet) hfocus
  | perform hrun hreply hop ih => exact ih

end Config

/-! ## Deeds of two walks -/

namespace State

theorem registrations_after (s : State V) (deeds : List (Deed V)) :
    (s.after deeds).world.registrations = s.world.registrations :=
  funext (s.rewritten_after deeds).registrations

theorem isBound_after {s : State V} {i : Id} {p : Property V} (hp : s.world.property? i = some p)
    (deeds : List (Deed V)) : (s.after deeds).world.isBound i = s.world.isBound i := by
  obtain ⟨u, hu⟩ := (s.rewritten_after deeds).property? hp
  simp [World.isBound, hu, hp]

/-- Deeds within another tree make no difference to a walk. -/
theorem agrees_after {lists : Id → List Registration} {root other : Id} (s : State V)
    (hdisjoint : ∀ x, Tree lists root x → ¬ Tree lists other x) {deeds : List (Deed V)}
    (hdeeds : ∀ d ∈ deeds, d.Within lists other) :
    s.Agrees (Tree lists root) (s.after deeds) where
  body := by
    intro x hx
    rw [World.body?, World.body?, (s.matches_after hdeeds).object x (hdisjoint x hx)]
  listener := s.body?_after deeds

/-- Outside the one tree, it makes no difference when the deeds in it are done. -/
theorem matches_swap {lists : Id → List Registration} {root : Id} (s : State V)
    {deeds others : List (Deed V)} (hdeeds : ∀ d ∈ deeds, d.Within lists root) :
    ((s.after others).after deeds).Matches (fun x => ¬ Tree lists root x)
      (fun l => ¬ Hears lists root l) ((s.after deeds).after others) := by
  have hlast := (s.after others).matches_after hdeeds
  have hfirst := (s.matches_after hdeeds).after others
  exact hlast.symm.trans hfirst

section

variable {lists : Id → List Registration} {i j : Id} (s : State V) {deeds others : List (Deed V)}

/-- Deeds in disjoint trees make the same objects in either order. -/
theorem object?_swap (hdisjoint : ∀ x, Tree lists i x → ¬ Tree lists j x)
    (hdeeds : ∀ d ∈ deeds, d.Within lists i) (hothers : ∀ d ∈ others, d.Within lists j) (x : Id) :
    ((s.after others).after deeds).world.object? x =
      ((s.after deeds).after others).world.object? x := by
  by_cases hx : Tree lists i x
  · exact (s.matches_swap hothers).object x (hdisjoint x hx)
  · exact ((s.matches_swap hdeeds).object x hx).symm

/-- Only a listener that is registered in both trees can tell the order. -/
theorem listeners_swap (hdeeds : ∀ d ∈ deeds, d.Within lists i)
    (hothers : ∀ d ∈ others, d.Within lists j) {l : ListenerId}
    (hl : ¬ (Hears lists i l ∧ Hears lists j l)) :
    ((s.after others).after deeds).world.listeners.get? l =
      ((s.after deeds).after others).world.listeners.get? l := by
  by_cases hears : Hears lists i l
  · exact (s.matches_swap hothers).listener l fun hears' => hl ⟨hears, hears'⟩
  · exact ((s.matches_swap hdeeds).listener l hears).symm

end

end State

/-- What a receiver drains depends on its name and its channel. -/
theorem World.reply_drain_congr [BEq V] {w w' : World V} (hnames : w'.names = w.names)
    {name : String} {l : ListenerId} (hname : w.find? name Handle.receiver? = some l)
    (hl : w'.listeners.get? l = w.listeners.get? l) (asText : Bool) :
    (w'.act [] (.drain name asText)).reply = (w.act [] (.drain name asText)).reply := by
  have hname' : w'.find? name Handle.receiver? = some l := by
    rw [find?, hnames]
    exact hname
  simp only [act, withName, withLive, hname, hname', hl]
  cases w.listeners.get? l <;> rfl

/-! ## Setting a property -/

variable [BEq V]

/-- An operation that is performed from outside ends, with a reply and in another state. -/
def State.Performs (s : State V) (op : Op V) (t : State V) (r : Reply V) : Prop :=
  ∃ n, s.perform? n op = some (t, r)

/-- Two calls of `set` from outside, on `n` to `v` and on `m` to `w`, in either order: first the one
on `n`, from `s` over `s₁` to `s₂`, or first the one on `m`, from `s` over `t₁` to `t₂`. They set
`i` and `j`. -/
structure Commuting (s s₁ s₂ t₁ t₂ : State V) (n m : String) (i j : Id) (v w : V) : Prop where
  /-- Each call returns the same in both orders, with the same events. -/
  calls : ∃ r q a b,
    s.Performs (.set n v) s₁ r ∧ s₁.log = s.log ++ a ∧
    s₁.Performs (.set m w) s₂ q ∧ s₂.log = s₁.log ++ b ∧
    s.Performs (.set m w) t₁ q ∧ t₁.log = s.log ++ b ∧
    t₁.Performs (.set n v) t₂ r ∧ t₂.log = t₁.log ++ a
  /-- Every object is the same in the end: its value, what it is bound to, and its registrations. -/
  object : ∀ x, t₂.world.object? x = s₂.world.object? x
  names : t₂.world.names = s₂.world.names
  /-- A listener that is registered in one of the trees at most has been called equally often, and
  as a channel it holds the same changes. -/
  listener : ∀ l, ¬ (Hears s.world.registrations i l ∧ Hears s.world.registrations j l) →
    t₂.world.listeners.get? l = s₂.world.listeners.get? l
  /-- Its receiver drains the same. -/
  drain : ∀ name l asText, s.world.find? name Handle.receiver? = some l →
    ¬ (Hears s.world.registrations i l ∧ Hears s.world.registrations j l) →
    (t₂.world.act [] (.drain name asText)).reply = (s₂.world.act [] (.drain name asText)).reply

namespace Config

/-- In a quiet run, setting a free property from outside does the deeds of its walk. -/
theorem Run.performs_set {past : List (Config V)} {c : Config V} (hrun : Run Op.IsQuiet past c)
    (hreply : c.reply?.isSome = true) {name : String} {i : Id}
    (hname : c.state.world.find? name Handle.property? = some i)
    (hfree : c.state.world.isBound i = false) {lists : Id → List Registration}
    (hlists : c.state.world.registrations = lists) (h : Acc (Feeds lists) i) {v : V}
    {t : State V} {r : Except Error V}
    (hwalk : c.state.updateBy (State.spread lists i h) i v = (t, r)) :
    c.state.Performs (.set name v) t (.ofUpdate r) ∧
      ∃ past', Run Op.IsQuiet past' ⟨t, .reply (.ofUpdate r) .idle⟩ := by
  subst hlists
  obtain ⟨p, hp⟩ := World.shape?_eq_property_iff.1 (hrun.sound.world.shape?_of_property hname)
  have hsource : p.source = none := by
    simpa [World.isBound, hp] using hfree
  have hleads : Leads (Config.start c.state (.set name v)) ⟨t, .reply (.ofUpdate r) .idle⟩ := by
    have hbegin : (Config.start c.state (.set name v)).step =
        some (c.state.update p v (.setting i .idle)) := step_set_free rfl hname hp hsource
    have hrest := hrun.leads_walk hp h v
    rw [State.walk, hwalk] at hrest
    exact (Leads.of_step hbegin).trans hrest
  refine ⟨State.perform?_of_leads hleads, ?_⟩
  obtain ⟨n, hn⟩ := hleads
  have hset : Run Op.IsQuiet (c :: past) (Config.start c.state (.set name v)) :=
    hrun.perform hreply trivial
  exact ⟨_, hn ▸ hset.iterate n⟩

/-- A free property is the root of a tree, and the walk through it does the same deeds wherever the
tree is the same. -/
theorem Run.deeds_of_free {past : List (Config V)} {c : Config V} (hrun : Run Op.IsPassive past c)
    {i : Id} {p : Property V} (hp : c.state.world.property? i = some p)
    (hfree : c.state.world.isBound i = false) (v : V) :
    c.state.world.relation? i = none ∧ ∃ h : Acc (Feeds c.state.world.registrations) i,
      ∃ deeds r, (∀ d ∈ deeds, d.Within c.state.world.registrations i) ∧
        ∀ t, c.state.Agrees (Tree c.state.world.registrations i) t →
          t.updateBy (State.spread c.state.world.registrations i h) i v = (t.after deeds, r) := by
  have hroot : c.state.world.relation? i = none := by
    rw [World.relation?_of_property? hp]
    simpa [World.isBound, hp] using hfree
  have halive := World.alive_of_shape? (World.shape?_eq_property_iff.2 ⟨p, hp⟩)
  have h := hrun.sound.world.linked.acc_of_free halive hroot
  have hself : Tree c.state.world.registrations i i := .refl
  exact ⟨hroot, h, State.local_updateBy hself (State.local_spread h hself) v c.state hrun.attentive⟩

/-- In a passive run, from any state in which nothing is in progress, two free properties can be set
in either order. -/
theorem Run.set_comm {past : List (Config V)} {c : Config V} (hrun : Run Op.IsPassive past c)
    (hreply : c.reply?.isSome = true) {n m : String} {i j : Id}
    (hn : c.state.world.find? n Handle.property? = some i)
    (hm : c.state.world.find? m Handle.property? = some j) (hne : i ≠ j)
    (hi : c.state.world.isBound i = false) (hj : c.state.world.isBound j = false) (v w : V) :
    ∃ s₁ s₂ t₁ t₂, Commuting c.state s₁ s₂ t₁ t₂ n m i j v w := by
  have hquiet := hrun.mono fun _ => Op.IsPassive.isQuiet
  have hworld := hrun.sound.world
  obtain ⟨p, hp⟩ := World.shape?_eq_property_iff.1 (hworld.shape?_of_property hn)
  obtain ⟨q, hq⟩ := World.shape?_eq_property_iff.1 (hworld.shape?_of_property hm)
  obtain ⟨hroot, h, deeds, r, hdeeds, hwalk⟩ := hrun.deeds_of_free hp hi v
  obtain ⟨hroot', h', others, r', hothers, hwalk'⟩ := hrun.deeds_of_free hq hj w
  have hdisjoint : ∀ x, Tree c.state.world.registrations i x →
      ¬ Tree c.state.world.registrations j x :=
    fun x hx hx' => hne (hworld.linked.root_unique hroot hroot' hx hx')
  have hdisjoint' : ∀ x, Tree c.state.world.registrations j x →
      ¬ Tree c.state.world.registrations i x := fun x hx' hx => hdisjoint x hx hx'
  have hnames : ∀ {α : Type} (ds : List (Deed V)) (name : String) (select : Handle → Option α),
      (c.state.after ds).world.find? name select = c.state.world.find? name select := by
    intro α ds name select
    rw [World.find?, (c.state.rewritten_after ds).names]
    rfl
  -- Each call does its deeds, whether or not the other one has been made before.
  obtain ⟨hfirst, past₁, hrun₁⟩ := hquiet.performs_set hreply hn hi rfl h (hwalk _ (.refl _ _))
  obtain ⟨hfirst', past₂, hrun₂⟩ := hquiet.performs_set hreply hm hj rfl h' (hwalk' _ (.refl _ _))
  obtain ⟨hsecond, _⟩ := hrun₁.performs_set rfl ((hnames deeds _ _).trans hm)
    ((State.isBound_after hq deeds).trans hj) (c.state.registrations_after deeds) h'
    (hwalk' _ (c.state.agrees_after hdisjoint' hdeeds))
  obtain ⟨hsecond', _⟩ := hrun₂.performs_set rfl ((hnames others _ _).trans hn)
    ((State.isBound_after hp others).trans hi) (c.state.registrations_after others) h
    (hwalk _ (c.state.agrees_after hdisjoint hothers))
  have hnamesLast : ((c.state.after others).after deeds).world.names =
      ((c.state.after deeds).after others).world.names := by
    rw [(State.rewritten_after _ _).names, (State.rewritten_after _ _).names,
      (State.rewritten_after _ _).names, (State.rewritten_after _ _).names]
  have hlistener := fun l => c.state.listeners_swap (l := l) hdeeds hothers
  refine ⟨c.state.after deeds, (c.state.after deeds).after others, c.state.after others,
    (c.state.after others).after deeds, ?_⟩
  constructor
  case calls =>
    exact ⟨_, _, _, _, hfirst, State.log_after _ _, hsecond, State.log_after _ _, hfirst',
      State.log_after _ _, hsecond', State.log_after _ _⟩
  case object => exact c.state.object?_swap hdisjoint hdeeds hothers
  case names => exact hnamesLast
  case listener => exact hlistener
  case drain =>
    intro name l asText hname hl
    refine World.reply_drain_congr hnamesLast ?_ (hlistener l hl) asText
    rw [← State.after_append]
    exact (hnames (deeds ++ others) _ _).trans hname

/-- The one property has a channel and a follower that rejects every value; a binding of the other
property has a channel. -/
theorem set_comm_rejected : ∃ (past : List (Config Nat)) (c : Config Nat),
    Run Op.IsPassive past c ∧ c.state.world.registrations 0 = [.listener 0, .bound 2] ∧
      c.state.world.registrations 1 = [.derived 3] ∧
      c.state.world.registrations 3 = [.listener 1] ∧
      ∃ s₁ s₂ t₁ t₂, Commuting c.state s₁ s₂ t₁ t₂ "p" "q" 0 1 5 7 := by
  have hp : Run Op.IsPassive _
      (Config.start {} (.act (.property "p" 0 (fun v => .stop (.ok v)) none))) :=
    .start ⟨fun _ => rfl, fun _ hr => by cases hr⟩
  have hq : Run Op.IsPassive _
      (Config.start _ (.act (.property "q" 0 (fun v => .stop (.ok v)) none))) :=
    (hp.step rfl).perform rfl ⟨fun _ => rfl, fun _ hr => by cases hr⟩
  have hfollower : Run Op.IsPassive _ (Config.start _ (.act (.property "r" 0
      (fun _ => .stop (.error (.text "rejected"))) none))) :=
    (hq.step rfl).perform rfl ⟨fun _ => rfl, fun _ hr => by cases hr⟩
  have hbinding : Run Op.IsPassive _ (Config.start _ (.wrap "q" "b" fun v => .stop (v + 1))) :=
    (hfollower.step rfl).perform rfl fun _ => rfl
  have hchannel : Run Op.IsPassive _ (Config.start _ (.act (.channel "l" "x"))) :=
    ((hbinding.step rfl).step rfl).perform rfl trivial
  have hother : Run Op.IsPassive _ (Config.start _ (.act (.channel "m" "y"))) :=
    (hchannel.step rfl).perform rfl trivial
  have hadd : Run Op.IsPassive _ (Config.start _ (.act (.add "p" "l"))) :=
    (hother.step rfl).perform rfl trivial
  have hbind : Run Op.IsPassive _ (Config.start _ (.act (.bind "r" "p"))) :=
    (hadd.step rfl).perform rfl trivial
  have hlisten : Run Op.IsPassive _ (Config.start _ (.act (.add "b" "m"))) :=
    (hbind.step rfl).perform rfl trivial
  have hlast := hlisten.step rfl
  exact ⟨_, _, hlast, rfl, rfl, rfl,
    hlast.set_comm rfl rfl rfl (by decide) rfl rfl 5 7⟩

end Config

end Observable
