import Observable.Proofs.History

/-!
# Where scripts come from

Every script that runs is what is left of a callback that was given to an operation, and the
operation was performed from outside or by such a script. So a property of scripts that is passed on
to what is left of a script, and to the callbacks of the operations that it performs
(`Script.Lasting`), holds of all scripts that run, if it holds of the callbacks that are given from
outside (`Config.Run.carries`).
-/

namespace Observable

variable {V : Type}

/-! ## Callbacks that are given -/

/-- The scripts that an object's callbacks run. -/
inductive Body.Gives : Body V → (ρ : Role) × Script V ρ → Prop
  | validate (p : Property V) (v : V) : Gives (.property p) ⟨_, p.validate v⟩
  | report (p : Property V) (report : Error → Script V .reporter)
      (hreport : p.report = some report) (e : Error) : Gives (.property p) ⟨_, report e⟩
  | convert (b : Binding V) (v : V) : Gives (.binding b) ⟨_, b.convert v⟩

/-- The scripts that a listener runs. -/
inductive Listener.Gives : Listener V → (ρ : Role) × Script V ρ → Prop
  | listen (calls : Nat) (body : Call V → Script V .listener) (call : Call V) :
    Gives (.callback calls body) ⟨_, body call⟩

/-- The scripts that the callbacks given to an operation run. -/
inductive Op.Gives : Op V → (ρ : Role) × Script V ρ → Prop
  | validate (name : String) (value : V) (validate : V → Script V .validator)
      (report : Option (Error → Script V .reporter)) (v : V) :
    Gives (.act (.property name value validate report)) ⟨_, validate v⟩
  | report (name : String) (value : V) (validate : V → Script V .validator)
      (report : Error → Script V .reporter) (e : Error) :
    Gives (.act (.property name value validate (some report))) ⟨_, report e⟩
  | listen (name : String) (body : Call V → Script V .listener) (call : Call V) :
    Gives (.act (.listener name body)) ⟨_, body call⟩
  | convert (name as : String) (convert : V → Script V .converter) (v : V) :
    Gives (.wrap name as convert) ⟨_, convert v⟩

theorem Op.Gives.of_property {name : String} {value : V} {validate : V → Script V .validator}
    {report : Option (Error → Script V .reporter)} {x : (ρ : Role) × Script V ρ}
    (hx : (Op.act (.property name value validate report)).Gives x) :
    (∃ v, x = ⟨_, validate v⟩) ∨ ∃ f ∈ report, ∃ e, x = ⟨_, f e⟩ := by
  cases hx with
  | validate _ _ _ _ v => exact .inl ⟨v, rfl⟩
  | report _ _ _ f e => exact .inr ⟨f, rfl, e, rfl⟩

theorem Body.Gives.of_store {b : Body V} {v : V} {x : (ρ : Role) × Script V ρ}
    (hx : (b.store v).Gives x) : b.Gives x := by
  cases b with
  | property p =>
    cases hx with
    | validate _ v => exact .validate p v
    | report _ report hreport e => exact .report p report hreport e
  | binding b =>
    cases hx with
    | convert _ v => exact .convert b v
  | bare => exact hx

theorem Body.Gives.of_follow {b : Body V} {source : Option Id} {x : (ρ : Role) × Script V ρ}
    (hx : (b.follow source).Gives x) : b.Gives x := by
  cases b with
  | property p =>
    cases hx with
    | validate _ v => exact .validate p v
    | report _ report hreport e => exact .report p report hreport e
  | binding b => exact hx
  | bare => exact hx

theorem Listener.Gives.of_counted {y : Listener V} {x : (ρ : Role) × Script V ρ}
    (hx : y.counted.Gives x) : y.Gives x := by
  cases y with
  | callback calls body =>
    cases hx with
    | listen _ _ call => exact .listen calls body call
  | channel => exact hx

theorem Listener.Gives.of_send {y : Listener V} {c : Change V} {x : (ρ : Role) × Script V ρ}
    (hx : (y.send c).Gives x) : y.Gives x := by
  cases y with
  | callback => exact hx
  | channel => cases hx

theorem Listener.Gives.of_drain {y : Listener V} {x : (ρ : Role) × Script V ρ}
    (hx : y.drain.Gives x) : y.Gives x := by
  cases y with
  | callback => exact hx
  | channel => cases hx

section

variable (P : (ρ : Role) × Script V ρ → Prop)

/-- Passed on to what is left of a script, and to the callbacks of the operations it performs. -/
structure Script.Lasting : Prop where
  emit : ∀ {ρ : Role} {e : Event V} {rest : Script V ρ}, P ⟨ρ, .emit e rest⟩ → P ⟨ρ, rest⟩
  next : ∀ {ρ : Role} {op : Op V} {next : Reply V → Script V ρ}, P ⟨ρ, .perform op next⟩ →
    ∀ r, P ⟨ρ, next r⟩
  gives : ∀ {ρ : Role} {op : Op V} {next : Reply V → Script V ρ}, P ⟨ρ, .perform op next⟩ →
    ∀ x, op.Gives x → P x

/-- A world all of whose callbacks have the property. -/
structure World.Carries (w : World V) : Prop where
  body : ∀ {i : Id} {b : Body V}, w.body? i = some b → ∀ x, b.Gives x → P x
  listener : ∀ {l : ListenerId} {y : Listener V}, w.listeners.get? l = some y →
    ∀ x, y.Gives x → P x

/-- The callbacks that wait have the property, and so has a converter that is still to be stored. -/
def Stack.Carries : {a : Awaits} → Stack V a → Prop
  | _, .idle => True
  | _, .script next below => (∀ r, P ⟨_, next r⟩) ∧ below.Carries
  | _, .setting _ below => below.Carries
  | _, .following _ below => below.Carries
  | _, .validating _ below => below.Carries
  | _, .reporting _ _ below => below.Carries
  | _, .converting _ below => below.Carries
  | _, .wrapping _ _ convert below => (∀ v, P ⟨_, convert v⟩) ∧ below.Carries
  | _, .listening below => below.Carries
  | _, .round _ _ _ _ below => below.Carries
  | _, .notifying _ _ below => below.Carries
  | _, .updating _ _ below => below.Carries
  | _, .recomputing _ below => below.Carries

def Focus.Carries : Focus V → Prop
  | .operate op k => (∀ x, op.Gives x → P x) ∧ k.Carries P
  | .reply _ k => k.Carries P
  | .run script k => P ⟨_, script⟩ ∧ k.Carries P
  | .round _ _ _ _ k => k.Carries P
  | .called _ k => k.Carries P
  | .rounded _ k => k.Carries P
  | .updated _ k => k.Carries P

/-- Every callback in the world, and every script that runs or waits, has the property. -/
structure Config.Carries (c : Config V) : Prop where
  world : c.state.world.Carries P
  focus : c.focus.Carries P

end

variable {P : (ρ : Role) × Script V ρ → Prop}

/-! ## Worlds -/

namespace World.Carries

variable {w w' : World V}

theorem property (hw : w.Carries P) {i : Id} {p : Property V} (hp : w.property? i = some p) :
    ∀ x, (Body.property p).Gives x → P x :=
  hw.body (body?_of_property? hp)

theorem binding (hw : w.Carries P) {i : Id} {b : Binding V} (hb : w.binding? i = some b) :
    ∀ x, (Body.binding b).Gives x → P x :=
  hw.body (body?_of_binding? hb)

theorem outlived (hw : w.Carries P) (houtlived : w.Outlived w')
    (hlisteners : w'.listeners = w.listeners) : w'.Carries P where
  body := by
    intro i b hb
    have halive : w'.alive i = true := alive_iff_body?.2 ⟨b, hb⟩
    rw [houtlived.body i halive] at hb
    exact hw.body hb
  listener := by
    intro l y hy
    rw [hlisteners] at hy
    exact hw.listener hy

theorem alter (hw : w.Carries P) (i : Id) {f : Object V → Object V}
    (hf : ∀ o x, (f o).body.Gives x → o.body.Gives x) : (w.alter i f).Carries P where
  body := by
    intro j b hb x hx
    have hbody : ∀ o, w.object? j = some o → o.body.Gives x → P x := fun o ho =>
      hw.body (by rw [body?, ho]; rfl) x
    unfold body? at hb
    rw [object?_alter] at hb
    split at hb
    · rw [Option.map_map] at hb
      obtain ⟨o, ho, rfl⟩ := Option.map_eq_some_iff.1 hb
      exact hbody o ho (hf o x hx)
    · obtain ⟨o, ho, rfl⟩ := Option.map_eq_some_iff.1 hb
      exact hbody o ho hx
  listener := hw.listener

theorem create (hw : w.Carries P) {b : Body V} (hb : ∀ x, b.Gives x → P x) :
    (w.create b).Carries P where
  body := by
    intro i b' hb'
    rw [body?_create] at hb'
    split at hb'
    · cases hb'
      exact hb
    · exact hw.body hb'
  listener := hw.listener

theorem createListener (hw : w.Carries P) {y : Listener V} (hy : ∀ x, y.Gives x → P x) :
    (w.createListener y).Carries P where
  body := hw.body
  listener := by
    intro l z hz
    have hget : (w.listeners.push y).get? l = some z := hz
    rw [Table.get?_push] at hget
    split at hget
    · cases hget
      exact hy
    · exact hw.listener hget

theorem alterListener (hw : w.Carries P) (m : ListenerId) {f : Listener V → Listener V}
    (hf : ∀ y x, (f y).Gives x → y.Gives x) : (w.alterListener m f).Carries P where
  body := hw.body
  listener := by
    intro l z hz
    have hget : (w.listeners.modify m f).get? l = some z := hz
    rw [Table.get?_modify] at hget
    split at hget
    · obtain ⟨y, hy, rfl⟩ := Option.map_eq_some_iff.1 hget
      exact fun x hx => hw.listener hy x (hf y x hx)
    · exact hw.listener hget

theorem assign (hw : w.Carries P) (held : List Id) (n : String) (h : Handle) :
    (w.assign held n h).Carries P :=
  hw.outlived (outlived_assign ..) (listeners_assign ..)

theorem register (hw : w.Carries P) (i : Id) (r : Registration) : (w.register i r).Carries P :=
  hw.alter i fun _ _ hx => hx

theorem unregister (hw : w.Carries P) (i : Id) (r : Registration) :
    (w.unregister i r).Carries P :=
  hw.alter i fun _ _ hx => hx

/-- An edit adds no callbacks but those that it is given. -/
theorem edit {held : List Id} {a : Action V} (hw : w.Carries P)
    (ha : ∀ x, (Op.act a).Gives x → P x) (hedit : w.Edit held a w') : w'.Carries P := by
  cases hedit with
  | read => exact hw
  | property name value validate report =>
    refine (hw.create fun x hx => ?_).assign ..
    cases hx with
    | validate _ v => exact ha _ (.validate name value validate report v)
    | report _ report hreport e =>
      cases hreport
      exact ha _ (.report name value validate report e)
  | listenerSet name => exact (hw.create fun x hx => by cases hx).assign ..
  | listener name body =>
    refine (hw.createListener fun x hx => ?_).assign ..
    cases hx with
    | listen _ _ call => exact ha _ (.listen name body call)
  | channel name receiver =>
    exact ((hw.createListener fun x hx => by cases hx).assign ..).assign ..
  | view | copy | weak => exact hw.assign ..
  | drop name => exact hw.outlived (outlived_forget ..) (listeners_forget ..)
  | bind => exact (hw.register ..).alter _ fun _ _ hx => hx.of_follow
  | unbind => exact (hw.alter _ fun _ _ hx => hx.of_follow).unregister ..
  | add => exact hw.register ..
  | remove => exact hw.unregister ..
  | drain => exact hw.alterListener _ fun _ _ hx => hx.of_drain

end World.Carries

/-! ## Runs -/

namespace Config

theorem carries_fail {s : State V} {e : Error} {k : Stack V .update} (hs : s.world.Carries P)
    (hk : k.Carries P) : (s.fail e k).focus.Carries P :=
  State.fail_cases (P := fun d => d.focus.Carries P) hk fun p report hp hreport =>
    ⟨hs.property hp _ (.report p report hreport e), hk⟩

variable [BEq V]

theorem Carries.effect {c : Config V} {w : World V} (hc : c.Carries P) (heffect : c.Effect w) :
    w.Carries P := by
  cases heffect with
  | same => exact hc.world
  | edit hfocus hedit =>
    have hop := hc.focus
    rw [hfocus] at hop
    exact hc.world.edit hop.1 hedit
  | store hwritten => exact hc.world.alter _ fun _ _ hx => hx.of_store
  | count => exact hc.world.alterListener _ fun _ _ hx => hx.of_counted
  | send hfocus => exact hc.world.alterListener _ fun _ _ hx => hx.of_send
  | release houtlived hlisteners _ => exact hc.world.outlived houtlived hlisteners
  | @wrap i name v convert k w hfocus houtlived hlisteners _ =>
    have hframe := hc.focus
    rw [hfocus] at hframe
    refine ((hc.world.register ..).create fun x hx => ?_).outlived houtlived hlisteners
    cases hx with
    | convert _ v => exact hframe.2.1 v

theorem Carries.transition (hP : Script.Lasting P) {c d : Config V} (hc : c.Carries P)
    (hmove : c.Transition d) : d.Carries P := by
  refine ⟨hc.effect (.of_transition hmove), ?_⟩
  obtain ⟨hw, hk⟩ := hc
  cases hmove with
  | act | setUnknown | setBound | notifyUnknown | wrapUnknown | notify => exact hk.2
  | set v hname hp hfree => exact ⟨hw.property hp _ (.validate _ v), hk.2⟩
  | @wrap s name i v k as convert hname hv =>
    have hconvert : ∀ v, P ⟨_, convert v⟩ := fun v => hk.1 _ (.convert name as convert v)
    exact ⟨hconvert v, hconvert, hk.2⟩
  | resume s r next k => exact ⟨hk.1 r, hk.2⟩
  | emit => exact ⟨hP.emit hk.1, hk.2⟩
  | perform => exact ⟨hP.gives hk.1, hP.next hk.1, hk.2⟩
  | gone | unchanged | write | reported => exact hk.2
  | announced => exact hk
  | reject s i c k => exact carries_fail hw hk.2
  | announceFailed s i old e k => exact carries_fail hw hk
  | setDone | followed | recomputed => exact hk
  | wrapped => exact hk.2.2
  | convertedGone | converted => exact hk.2
  | roundDone | callGone | send | boundGone | derivedGone => exact hk
  | listen rest observed old new k hl => exact ⟨hw.listener hl _ (.listen _ _ _), hk⟩
  | deliver rest observed old new k hp => exact ⟨hw.property hp _ (.validate _ new), hk⟩
  | convert rest observed old new k hb => exact ⟨hw.binding hb _ (.convert _ new), hk⟩
  | listened | listenFailed => exact hk.2
  | called | callFailed | notified => exact hk

/-- What holds of the callbacks that are given from outside, and is passed on, holds of every script
that runs. -/
theorem Run.carries (hP : Script.Lasting P) {past : List (Config V)} {c : Config V}
    (hrun : Run (fun op => ∀ x, op.Gives x → P x) past c) : c.Carries P := by
  induction hrun with
  | start hop =>
    refine ⟨⟨?_, ?_⟩, hop, trivial⟩
    · intro i b hb
      cases hb
    · intro l y hy
      cases hy
  | step hrun hstep ih => exact ih.transition hP (.of_step hstep)
  | perform hrun hreply hop ih => exact ⟨ih.world, hop, trivial⟩

end Config

end Observable
