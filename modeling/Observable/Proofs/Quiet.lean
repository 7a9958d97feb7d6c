import Observable.Passive
import Observable.Proofs.Callbacks

/-!
# Quiet runs

A run is quiet if no callback performs an operation (`Op.IsQuiet`); callbacks may still fail, and a
listener may count its calls. In a quiet run all operations are performed from outside, so every
script in the world and in the frames that wait is passive (`Config.Run.quiet`), and an object never
loses its last name while an update is in progress (`Config.Run.named`). The ends of holds then
change nothing.
-/

namespace Observable

variable {V : Type}

/-! ## Callbacks that perform no operation -/

/-- A listener that performs no operation. -/
def Listener.IsQuiet : Listener V → Prop
  | .callback _ body => ∀ call, (body call).IsPassive
  | .channel _ _ => True

/-- An operation that is given no callback that performs operations. -/
def Op.IsQuiet : Op V → Prop
  | .act (.property _ value validate report) =>
    Property.IsPassive ⟨value, validate, report, none⟩
  | .act (.listener _ body) => ∀ call, (body call).IsPassive
  | .wrap _ _ convert => ∀ v, (convert v).IsPassive
  | _ => True

/-- An object whose callbacks perform no operation. -/
def Body.IsPassive : Body V → Prop
  | .property p => p.IsPassive
  | .binding b => b.IsPassive
  | .bare => True

/-- A world whose callbacks perform no operation. -/
structure World.IsQuiet (w : World V) : Prop where
  body : ∀ i b, w.body? i = some b → b.IsPassive
  listener : ∀ l x, w.listeners.get? l = some x → x.IsQuiet

/-- Passive callbacks are quiet. -/
theorem Listener.IsPassive.isQuiet {x : Listener V} (hx : x.IsPassive) : x.IsQuiet := by
  cases x with
  | callback calls body => exact hx.1
  | channel sent taken => trivial

theorem World.IsPassive.isQuiet {w : World V} (hw : w.IsPassive) : w.IsQuiet where
  body := by
    intro i b hb
    cases b with
    | property p => exact hw.property i p (by rw [property?_eq_body?, hb]; rfl)
    | binding b => exact hw.binding i b (by rw [binding?_eq_body?, hb]; rfl)
    | bare => trivial
  listener := fun l x hx => (hw.listener l x hx).isQuiet

theorem Script.isPassive_emit {ρ : Role} {e : Event V} {rest : Script V ρ}
    (hemit : (Script.emit e rest).IsPassive) : rest.IsPassive := by
  unfold IsPassive at hemit ⊢
  rw [outcome?_emit, Option.isSome_map] at hemit
  exact hemit

theorem Script.not_isPassive_perform {ρ : Role} {op : Op V} {next : Reply V → Script V ρ} :
    ¬ (Script.perform op next).IsPassive := by
  intro hperform
  unfold IsPassive at hperform
  rw [outcome?] at hperform
  cases hperform

namespace World

theorem IsQuiet.property {w : World V} (hw : w.IsQuiet) {i : Id} {p : Property V}
    (hp : w.property? i = some p) : p.IsPassive :=
  hw.body i _ (body?_of_property? hp)

theorem IsQuiet.binding {w : World V} (hw : w.IsQuiet) {i : Id} {b : Binding V}
    (hb : w.binding? i = some b) : b.IsPassive :=
  hw.body i _ (body?_of_binding? hb)

/-- A world is quiet if all the scripts that its callbacks run are passive. -/
theorem isQuiet_iff {w : World V} : w.IsQuiet ↔ w.Carries fun x => x.2.IsPassive := by
  constructor
  · intro hw
    constructor
    · intro i b hb x hx
      have hpassive := hw.body i b hb
      cases hx with
      | validate p v => exact hpassive.validate v
      | report p report hreport e => exact hpassive.report report hreport e
      | convert b v => exact hpassive v
    · intro l y hy x hx
      have hquiet := hw.listener l y hy
      cases hx with
      | listen calls body call => exact hquiet call
  · intro hw
    constructor
    · intro i b hb
      have hpassive := hw.body hb
      cases b with
      | property p =>
        exact ⟨fun v => hpassive _ (.validate p v), fun report hreport e =>
          hpassive _ (.report p report hreport e)⟩
      | binding b => exact fun v => hpassive _ (.convert b v)
      | bare => trivial
    · intro l y hy
      have hquiet := hw.listener hy
      cases y with
      | callback calls body => exact fun call => hquiet _ (.listen calls body call)
      | channel => trivial

end World

/-! ## Quiet configurations -/

/-- No callback waits for the reply to an operation, and none that is still to be stored performs
one. -/
def Stack.IsQuiet : {a : Awaits} → Stack V a → Prop
  | _, .idle => True
  | _, .script _ _ => False
  | _, .setting _ below => below.IsQuiet
  | _, .following _ below => below.IsQuiet
  | _, .validating _ below => below.IsQuiet
  | _, .reporting _ _ below => below.IsQuiet
  | _, .converting _ below => below.IsQuiet
  | _, .wrapping _ _ convert below => (∀ v, (convert v).IsPassive) ∧ below.IsQuiet
  | _, .listening below => below.IsQuiet
  | _, .round _ _ _ _ below => below.IsQuiet
  | _, .notifying _ _ below => below.IsQuiet
  | _, .updating _ _ below => below.IsQuiet
  | _, .recomputing _ below => below.IsQuiet

/-- In a quiet stack an operation can only be performed from outside. -/
theorem Stack.IsQuiet.eq_idle {k : Stack V .reply} (hk : k.IsQuiet) : k = .idle := by
  cases k with
  | idle => rfl
  | script next below => exact hk.elim

theorem Stack.IsQuiet.carries {a : Awaits} {k : Stack V a} (hk : k.IsQuiet) :
    k.Carries fun x => x.2.IsPassive := by
  induction k with
  | idle => trivial
  | script => exact hk.elim
  | wrapping i name convert k ih => exact ⟨hk.1, ih hk.2⟩
  | _ => rename_i ih; exact ih hk

theorem Op.IsQuiet.passive_of_gives {op : Op V} (hop : op.IsQuiet)
    (x : (ρ : Role) × Script V ρ) (hx : op.Gives x) : x.2.IsPassive := by
  cases hx with
  | validate name value validate report v => exact hop.validate v
  | report name value validate report e => exact hop.report report rfl e
  | listen name body call => exact hop call
  | convert name as convert v => exact hop v

def Focus.IsQuiet : Focus V → Prop
  | .operate op k => op.IsQuiet ∧ k.IsQuiet
  | .reply _ k => k.IsQuiet
  | .run script k => script.IsPassive ∧ k.IsQuiet
  | .round _ _ _ _ k => k.IsQuiet
  | .called _ k => k.IsQuiet
  | .rounded _ k => k.IsQuiet
  | .updated _ k => k.IsQuiet

namespace Config

/-- Neither the world nor what is going on has a callback that performs an operation. -/
structure IsQuiet (c : Config V) : Prop where
  world : c.state.world.IsQuiet
  focus : c.focus.IsQuiet

theorem quiet_fail {s : State V} {e : Error} {k : Stack V .update} (hs : s.world.IsQuiet)
    (hk : k.IsQuiet) : (s.fail e k).focus.IsQuiet :=
  State.fail_cases (P := fun d => d.focus.IsQuiet) hk fun p report hp hreport =>
    ⟨(hs.property hp).report report (by rw [hreport]; rfl) e, hk⟩

variable [BEq V]

theorem IsQuiet.effect {c : Config V} {w : World V} (hc : c.IsQuiet) (heffect : c.Effect w) :
    w.IsQuiet := by
  refine World.isQuiet_iff.2 (Carries.effect ⟨World.isQuiet_iff.1 hc.world, ?_⟩ heffect)
  obtain ⟨_, hfocus⟩ := hc
  cases h : c.focus <;> rw [h] at hfocus
  case operate op k => exact ⟨hfocus.1.passive_of_gives, hfocus.2.carries⟩
  case run script k => exact ⟨hfocus.1, hfocus.2.carries⟩
  all_goals exact Stack.IsQuiet.carries hfocus

theorem IsQuiet.transition {c d : Config V} (hc : c.IsQuiet) (hmove : c.Transition d) :
    d.IsQuiet := by
  refine ⟨hc.effect (.of_transition hmove), ?_⟩
  obtain ⟨hw, hk⟩ := hc
  cases hmove with
  | act | setUnknown | setBound | notifyUnknown | wrapUnknown => exact hk.2
  | set v hname hp hfree => exact ⟨(hw.property hp).validate v, hk.2⟩
  | notify => exact hk.2
  | @wrap s name i v k as convert hname hv => exact ⟨hk.1 v, hk.1, hk.2⟩
  | resume => exact hk.elim
  | emit => exact ⟨Script.isPassive_emit hk.1, hk.2⟩
  | perform => exact absurd hk.1 Script.not_isPassive_perform
  | gone | unchanged | write | reported => exact hk.2
  | announced => exact hk
  | reject s i c k => exact quiet_fail hw hk.2
  | announceFailed s i old e k => exact quiet_fail hw hk
  | setDone | followed | recomputed => exact hk
  | wrapped => exact hk.2.2
  | convertedGone | converted => exact hk.2
  | roundDone | callGone | send | boundGone | derivedGone => exact hk
  | listen rest observed old new k hl => exact ⟨hw.listener _ _ hl _, hk⟩
  | deliver rest observed old new k hp => exact ⟨(hw.property hp).validate new, hk⟩
  | convert rest observed old new k hb => exact ⟨hw.binding hb new, hk⟩
  | listened | listenFailed => exact hk.2
  | called | callFailed | notified => exact hk

theorem Run.quiet {past : List (Config V)} {c : Config V} (hrun : Run Op.IsQuiet past c) :
    c.IsQuiet := by
  induction hrun with
  | start hop =>
    refine ⟨⟨?_, ?_⟩, hop, trivial⟩
    · intro i b hb
      cases hb
    · intro l x hx
      cases hx
  | step hrun hstep ih => exact ih.transition (.of_step hstep)
  | perform hrun hreply hop ih => exact ⟨ih.world, hop, trivial⟩

/-! ## Every live object has a name -/

/-- Nothing lives by an operation in progress alone. -/
def IsNamed (c : Config V) : Prop :=
  ∀ i, c.state.world.alive i = true → c.state.world.names.holds i = true

omit [BEq V] in
/-- The end of a hold changes nothing where every live object has a name. -/
theorem release_of_named {s : State V} {a : Awaits} {k : Stack V a}
    (hnamed : ∀ i, s.world.alive i = true → s.world.names.holds i = true) (i : Id) :
    s.release k i = s := by
  have hworld : s.world.release k.holds i = s.world := by
    -- What lives is named and stays, and what is dead already is buried without effect.
    unfold World.release
    cases halive : s.world.alive i with
    | true => simp [hnamed i halive]
    | false =>
      have hdead : s.world.object? i = none := by
        simpa [World.alive] using halive
      rw [World.bury_of_dead hdead, ite_self]
  unfold State.release
  rw [hworld]

omit [BEq V] in
/-- Once nothing is in progress, all that lives has a name. -/
theorem Sound.named {c : Config V} (hc : c.Sound) (hholds : c.focus.holds = []) : c.IsNamed := by
  intro i halive
  rcases hc.world.owned i halive with hnamed | hmem
  · exact hnamed
  · rw [hholds] at hmem
    cases hmem

omit [BEq V] in
theorem named_fail {s : State V} {e : Error} {k : Stack V .update}
    (hnamed : ∀ i, s.world.alive i = true → s.world.names.holds i = true) :
    (s.fail e k).IsNamed := by
  intro i
  rw [state_fail]
  exact hnamed i

theorem IsNamed.transition {c d : Config V} (hc : c.IsQuiet) (hd : d.Sound) (hnamed : c.IsNamed)
    (hmove : c.Transition d) : d.IsNamed := by
  cases hmove with
  | act s a k =>
    have hidle := hc.focus.2.eq_idle
    subst hidle
    exact hd.named rfl
  | wrapped s i name convert v k =>
    have hidle := hc.focus.2.2.eq_idle
    subst hidle
    exact hd.named rfl
  | setUnknown | setBound | set | notifyUnknown | notify | wrapUnknown | wrap => exact hnamed
  | resume | emit | perform => exact hnamed
  | gone | unchanged | reported | announced => exact hnamed
  | write | converted =>
    intro i halive
    apply hnamed
    rw [← World.alive_congr (World.shape?_store ..)]
    exact halive
  | reject => exact named_fail hnamed
  | announceFailed => exact named_fail hnamed
  | setDone | followed | convertedGone | recomputed =>
    intro i
    rw [release_of_named hnamed]
    exact hnamed i
  | roundDone | callGone | boundGone | deliver | derivedGone | convert => exact hnamed
  | send | listen => exact hnamed
  | listened | listenFailed | called | callFailed => exact hnamed
  | notified =>
    intro i
    rw [release_of_named hnamed, release_of_named hnamed]
    exact hnamed i

theorem Run.named {past : List (Config V)} {c : Config V} (hrun : Run Op.IsQuiet past c) :
    c.IsNamed := by
  induction hrun with
  | start hop =>
    intro i halive
    cases halive
  | step hrun hstep ih =>
    exact ih.transition hrun.quiet (hrun.step hstep).sound (.of_step hstep)
  | perform hrun hreply hop ih => exact ih

end Config

end Observable
