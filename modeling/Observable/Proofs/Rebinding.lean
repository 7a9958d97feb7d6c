import Observable.Proofs.History

/-!
# Binding and releasing

A property gets a source when it is bound and loses it when it is released, and no other operation
changes what an object's source is. This module supplies the rules of the two operations in a linked
world (`World.bind_free`, `World.unbind_bound` and the failing cases), what any action makes of the
sources (`World.Rebinding`), and what a step makes of them: which property the next step of a
configuration binds or releases (`Config.rebinding?`), and that every other object which lives on
keeps its source (`Config.relation?_of_step`).
-/

namespace Observable

variable {V : Type}

/-- The operation succeeded. -/
def Reply.isDone : Reply V → Bool
  | .done _ => true
  | _ => false

namespace World

/-! ## The rules -/

theorem bind_self {w : World V} {i : Id} {p : Property V} (hp : w.property? i = some p) :
    w.bind i i = w.replies (.failed .selfBinding) := by
  simp [World.bind, withLive, hp]

theorem bind_bound {w : World V} {i source : Id} {p : Property V} (hp : w.property? i = some p)
    (hne : i ≠ source) (hbound : p.source.isSome = true) :
    w.bind i source = w.replies (.failed .alreadyBound) := by
  simp [World.bind, withLive, hp, hne, hbound]

theorem bind_free {w : World V} {i source : Id} {p : Property V} (hp : w.property? i = some p)
    (hne : i ≠ source) (hfree : p.source = none) :
    w.bind i source =
      { world := (w.register source (.bound i)).follow i (some source)
        traces := [.bound i source]
        reply := .done .unit } := by
  simp [World.bind, withLive, hp, hne, hfree]

theorem unbind_free {w : World V} {i : Id} {p : Property V} (hp : w.property? i = some p)
    (hfree : p.source = none) : w.unbind i = w.replies (.failed .notBound) := by
  simp [World.unbind, withLive, hp, hfree]

/-- The registration of a bound property is there to be removed as long as its source lives. -/
theorem unbind_bound {w : World V} (hw : w.Linked) {i source : Id} {p : Property V}
    (hp : w.property? i = some p) (hbound : p.source = some source) :
    w.unbind i =
      { world := (w.follow i none).unregister source (.bound i)
        traces := [.unbound i source]
        reply := .done .unit } := by
  have hrelation : w.relation? i = some (source, .bound i) := by
    rw [relation?_of_property? hp, hbound]
    rfl
  have hpresent : ((w.follow i none).alive source &&
      !((w.follow i none).registrations source).contains (.bound i)) = false := by
    rw [alive_congr (shape?_follow ..), registrations_follow]
    cases halive : w.alive source with
    | false => rfl
    | true => simp [hw.mem_of_relation? halive hrelation]
  simp only [World.unbind, withLive, hp, hbound, World.remove, hpresent, Bool.false_eq_true,
    if_false]
  rfl

/-- `bind` is refused on the property itself, and otherwise on a bound property. -/
theorem reply_bind {w : World V} {i : Id} {p : Property V} (hp : w.property? i = some p)
    (source : Id) :
    (w.bind i source).reply =
      if i = source then .failed .selfBinding
      else if p.source.isSome then .failed .alreadyBound
      else .done .unit := by
  simp only [World.bind, withLive, hp]
  split
  · rfl
  · split <;> rfl

theorem bind_refused {w : World V} {i source : Id} {p : Property V} (hp : w.property? i = some p)
    (hrefused : i = source ∨ p.source.isSome = true) : ∃ r, w.bind i source = w.replies r := by
  by_cases hself : i = source
  · subst hself
    exact ⟨_, bind_self hp⟩
  · exact ⟨_, bind_bound hp hself (hrefused.resolve_left hself)⟩

/-- Binding pulls no value. -/
theorem value?_bind (w : World V) (i source j : Id) :
    (w.bind i source).world.value? j = w.value? j := by
  unfold World.bind withLive
  split
  · rfl
  · simp only
    split
    · rfl
    · split
      · rfl
      · rw [value?_follow, value?_register]

/-- `unbind` is refused on a free property only. -/
theorem reply_unbind {w : World V} (hw : w.Linked) {i : Id} {p : Property V}
    (hp : w.property? i = some p) :
    (w.unbind i).reply = if p.source.isSome then .done .unit else .failed .notBound := by
  cases hsource : p.source with
  | none =>
    rw [unbind_free hp hsource]
    rfl
  | some source =>
    rw [unbind_bound hw hp hsource]
    rfl

/-- A released property keeps its value. -/
theorem value?_unbind (w : World V) (i j : Id) : (w.unbind i).world.value? j = w.value? j := by
  unfold World.unbind withLive
  split
  · rfl
  · simp only
    split
    · rfl
    · rw [world_remove, value?_unregister, value?_follow]

/-! ## What an action makes of the sources -/

variable [BEq V]

theorem act_bind {w : World V} (held : List Id) {name target : String} {i source : Id}
    (hname : w.find? name Handle.property? = some i)
    (htarget : w.find? target Handle.observable? = some source) :
    w.act held (.bind name target) = w.bind i source := by
  simp [act, withName, hname, htarget]

theorem act_unbind {w : World V} (held : List Id) {name : String} {i : Id}
    (hname : w.find? name Handle.property? = some i) :
    w.act held (.unbind name) = w.unbind i := by
  simp [act, withName, hname]

/-- The property that an action binds or releases successfully, and the source that it gets. -/
def rebinding? (w : World V) (held : List Id) (a : Action V) : Option (Id × Option Id) :=
  if (w.act held a).reply.isDone then
    match a with
    | .bind name target =>
      (w.find? name Handle.property?).bind fun i =>
        (w.find? target Handle.observable?).map fun source => (i, some source)
    | .unbind name => (w.find? name Handle.property?).map fun i => (i, none)
    | _ => none
  else none

/-- What an action leads to, seen by what it binds or releases. -/
inductive Rebinding (w : World V) : Option (Id × Option Id) → Observable.Effect V → Prop
  | still {e : Observable.Effect V} (htraces : e.traces = []) : Rebinding w none e
  | bind {i source : Id} {p : Property V} (hp : w.property? i = some p) (hfree : p.source = none)
      (hne : i ≠ source) :
    Rebinding w (some (i, some source))
      { world := (w.register source (.bound i)).follow i (some source)
        traces := [.bound i source]
        reply := .done .unit }
  | unbind {i source : Id} {p : Property V} (hp : w.property? i = some p)
      (hbound : p.source = some source) :
    Rebinding w (some (i, none))
      { world := (w.follow i none).unregister source (.bound i)
        traces := [.unbound i source]
        reply := .done .unit }

omit [BEq V] in
theorem traces_withName {α : Type} {w : World V} {name : String} {select : Handle → Option α}
    {go : α → Observable.Effect V} (hgo : ∀ a, (go a).traces = []) :
    (w.withName name select go).traces = [] := by
  unfold withName
  split
  · rfl
  · exact hgo _

omit [BEq V] in
theorem traces_withLive {α : Type} {w : World V} {found : Option α} {go : α → Observable.Effect V}
    (hgo : ∀ a, (go a).traces = []) : (w.withLive found go).traces = [] := by
  unfold withLive
  split
  · rfl
  · exact hgo _

omit [BEq V] in
theorem traces_remove (w : World V) (i : Id) (r : Registration) : (w.remove i r).traces = [] := by
  unfold remove
  split <;> rfl

theorem Rebinding.of_failed {w : World V} {held : List Id} {a : Action V} {r : Reply V}
    (hact : w.act held a = w.replies r) (hr : r.isDone = false) :
    w.Rebinding (w.rebinding? held a) (w.act held a) := by
  have hnone : w.rebinding? held a = none := by
    simp [rebinding?, hact, replies, hr]
  rw [hnone, hact]
  exact .still rfl

/-- An action of another kind binds and releases nothing. -/
theorem Rebinding.of_other {w : World V} {held : List Id} {a : Action V}
    (hnone : w.rebinding? held a = none) (htraces : (w.act held a).traces = []) :
    w.Rebinding (w.rebinding? held a) (w.act held a) := by
  rw [hnone]
  exact .still htraces

theorem rebinding?_of_bind {w : World V} (held : List Id) {name target : String} {i source : Id}
    {p : Property V} (hname : w.find? name Handle.property? = some i)
    (htarget : w.find? target Handle.observable? = some source) (hp : w.property? i = some p)
    (hne : i ≠ source) (hfree : p.source = none) :
    w.rebinding? held (.bind name target) = some (i, some source) := by
  simp [rebinding?, act_bind held hname htarget, bind_free hp hne hfree, Reply.isDone, hname,
    htarget]

theorem rebinding?_of_unbind {w : World V} (hw : w.Linked) (held : List Id) {name : String}
    {i source : Id} {p : Property V} (hname : w.find? name Handle.property? = some i)
    (hp : w.property? i = some p) (hbound : p.source = some source) :
    w.rebinding? held (.unbind name) = some (i, none) := by
  simp [rebinding?, act_unbind held hname, unbind_bound hw hp hbound, Reply.isDone, hname]

theorem rebinding_bind (w : World V) (held : List Id) (name target : String) :
    w.Rebinding (w.rebinding? held (.bind name target)) (w.act held (.bind name target)) := by
  cases hname : w.find? name Handle.property? with
  | none => exact .of_failed (by simp [act, withName, hname]; rfl) rfl
  | some i =>
    cases htarget : w.find? target Handle.observable? with
    | none => exact .of_failed (by simp [act, withName, hname, htarget]; rfl) rfl
    | some source =>
      have hact := act_bind held hname htarget
      cases hp : w.property? i with
      | none =>
        have hbind : w.bind i source = w.replies .unknownName := by
          simp [World.bind, withLive, hp]
        exact .of_failed (hact.trans hbind) rfl
      | some p =>
        by_cases hself : i = source
        · subst hself
          exact .of_failed (hact.trans (bind_self hp)) rfl
        · cases hsource : p.source with
          | some _ =>
            have hbind := bind_bound hp hself (by rw [hsource]; rfl)
            exact .of_failed (hact.trans hbind) rfl
          | none =>
            rw [rebinding?_of_bind held hname htarget hp hself hsource, hact,
              bind_free hp hself hsource]
            exact .bind hp hsource hself

theorem rebinding_unbind {w : World V} (hw : w.Linked) (held : List Id) (name : String) :
    w.Rebinding (w.rebinding? held (.unbind name)) (w.act held (.unbind name)) := by
  cases hname : w.find? name Handle.property? with
  | none => exact .of_failed (by simp [act, withName, hname]; rfl) rfl
  | some i =>
    have hact := act_unbind held hname
    cases hp : w.property? i with
    | none =>
      have hunbind : w.unbind i = w.replies .unknownName := by
        simp [World.unbind, withLive, hp]
      exact .of_failed (hact.trans hunbind) rfl
    | some p =>
      cases hsource : p.source with
      | none => exact .of_failed (hact.trans (unbind_free hp hsource)) rfl
      | some source =>
        rw [rebinding?_of_unbind hw held hname hp hsource, hact, unbind_bound hw hp hsource]
        exact .unbind hp hsource

theorem rebinding_act {w : World V} (hw : w.Linked) (held : List Id) (a : Action V) :
    w.Rebinding (w.rebinding? held a) (w.act held a) := by
  cases a with
  | bind name target => exact rebinding_bind w held name target
  | unbind name => exact rebinding_unbind hw held name
  | property | listenerSet | listener | channel | compare | constant =>
    exact .of_other (ite_self _) rfl
  | view | copy | weak | drop | isBound | count | isEmpty | id =>
    exact .of_other (ite_self _) (traces_withName fun _ => rfl)
  | add | contains | sameId | sameListener =>
    exact .of_other (ite_self _) (traces_withName fun _ => traces_withName fun _ => rfl)
  | remove =>
    exact .of_other (ite_self _)
      (traces_withName fun _ => traces_withName fun _ => traces_remove ..)
  | get | drain | display | describe =>
    exact .of_other (ite_self _) (traces_withName fun _ => traces_withLive fun _ => rfl)

/-- An object that outlives an edit keeps its source, unless it is bound or released. -/
theorem Edit.relation? {w w' : World V} (hw : w.Linked) {held : List Id} {a : Action V}
    (hedit : w.Edit held a w') {i : Id} (hlt : i < w.objects.size) (halive : w'.alive i = true)
    (hsame : ∀ source, w.rebinding? held a ≠ some (i, source)) :
    w'.relation? i = w.relation? i := by
  by_cases hrebound : w.rebound? a = some i
  · cases hedit with
    | read => rfl
    | bind hname htarget hp hfree hne =>
      rw [rebound?, hname] at hrebound
      cases hrebound
      exact absurd (rebinding?_of_bind held hname htarget hp hne hfree) (hsame _)
    | unbind hname hp hbound =>
      rw [rebound?, hname] at hrebound
      cases hrebound
      exact absurd (rebinding?_of_unbind hw held hname hp hbound) (hsame _)
    | add => exact relation?_register ..
    | remove => exact relation?_unregister ..
    | _ => cases hrebound
  · rw [relation?_eq_body?, relation?_eq_body?, hedit.body? hlt halive hrebound]

end World

namespace Config

variable [BEq V]

/-- The property that the next step binds or releases successfully, and the source that it gets. -/
def rebinding? (c : Config V) : Option (Id × Option Id) :=
  match c.focus with
  | .operate (.act a) k => c.state.world.rebinding? k.holds a
  | _ => none

/-- A step that binds or releases ends its operation at once. -/
theorem Sound.rebinding {c d : Config V} (hc : c.Sound) (hstep : c.step = some d) {i : Id}
    {source : Option Id} (hrebinding : c.rebinding? = some (i, source)) :
    ∃ e k, d = ⟨⟨e.world, c.state.log ++ e.traces.map .trace⟩, .reply e.reply k⟩ ∧
      c.state.world.Rebinding (some (i, source)) e := by
  obtain ⟨s, f⟩ := c
  unfold rebinding? at hrebinding
  split at hrebinding
  · next a k hfocus =>
    cases hfocus
    cases hstep
    refine ⟨s.world.act k.holds a, k, rfl, ?_⟩
    rw [← hrebinding]
    exact World.rebinding_act hc.world.linked k.holds a
  · cases hrebinding

/-- A bound property refuses to be set. -/
theorem step_set_bound {c : Config V} {name : String} {v : V} {k : Stack V .reply} {i : Id}
    {p : Property V} (hfocus : c.focus = .operate (.set name v) k)
    (hname : c.state.world.find? name Handle.property? = some i)
    (hp : c.state.world.property? i = some p) (hbound : p.source.isSome = true) :
    c.step = some ⟨c.state, .reply (.failed .boundWrite) k⟩ := by
  simp [step, hfocus, State.operate, hname, hp, hbound]

/-- To set a free property begins with its validator. -/
theorem step_set_free {c : Config V} {name : String} {v : V} {k : Stack V .reply} {i : Id}
    {p : Property V} (hfocus : c.focus = .operate (.set name v) k)
    (hname : c.state.world.find? name Handle.property? = some i)
    (hp : c.state.world.property? i = some p) (hfree : p.source = none) :
    c.step = some ⟨c.state, .run (p.validate v) (.validating i (.setting i k))⟩ := by
  simp [step, hfocus, State.operate, hname, hp, hfree, State.update, Stack.updated]

/-- An object that lives on keeps its source, unless it is bound or released. -/
theorem relation?_of_step {c d : Config V} (hc : c.Sound) (hstep : c.step = some d) {i : Id}
    (hlt : i < c.state.world.objects.size) (halive : d.state.world.alive i = true)
    (hsame : ∀ source, c.rebinding? ≠ some (i, source)) :
    d.state.world.relation? i = c.state.world.relation? i := by
  have heffect := Effect.of_transition (.of_step hstep)
  generalize d.state.world = w at heffect halive ⊢
  cases heffect with
  | same | count | send => rfl
  | edit hfocus hedit =>
    apply hedit.relation? hc.world.linked hlt halive
    intro source hsource
    apply hsame source
    rw [rebinding?, hfocus]
    exact hsource
  | store => exact World.relation?_store ..
  | release houtlived _ _ =>
    rw [World.relation?_eq_body?, World.relation?_eq_body?, houtlived.body i halive]
  | wrap _ houtlived _ _ =>
    rw [World.relation?_eq_body?, World.relation?_eq_body?, houtlived.body i halive,
      body?_wrap, if_neg (Nat.ne_of_lt hlt)]

/-- What has a source keeps it as long as it lives and is not released. -/
theorem relation?_kept {c d : Config V} (hc : c.Sound) (hstep : c.step = some d) {i u : Id}
    {r : Registration} (hrelation : c.state.world.relation? i = some (u, r))
    (halive : d.state.world.alive i = true) (hkept : c.rebinding? ≠ some (i, none)) :
    d.state.world.relation? i = some (u, r) := by
  have hlt := World.lt_size_of_alive (World.alive_of_relation? hrelation)
  rw [relation?_of_step hc hstep hlt halive, hrelation]
  rintro (_ | source) hsource
  · exact hkept hsource
  · -- Only a free property is bound.
    obtain ⟨e, k, _, hrebinding⟩ := hc.rebinding hstep hsource
    cases hrebinding with
    | bind hp hfree hne =>
      rw [World.relation?_of_property? hp, hfree] at hrelation
      cases hrelation

/-- A source that is not given up is still there at any later moment at which the object lives. -/
theorem Run.relation?_kept {allowed : Op V → Prop} {later before : List (Config V)}
    {c₀ c : Config V} (hrun : Run allowed (later ++ c₀ :: before) c) {i u : Id} {r : Registration}
    (hrelation : c₀.state.world.relation? i = some (u, r))
    (hkept : ∀ d ∈ later ++ [c₀], d.rebinding? ≠ some (i, none)) :
    i < c.state.world.objects.size ∧
      (c.state.world.alive i = true → c.state.world.relation? i = some (u, r)) := by
  induction later generalizing c with
  | nil =>
    have hlt := World.lt_size_of_alive (World.alive_of_relation? hrelation)
    cases hrun with
    | step hrun hstep =>
      have heffect := Effect.of_transition (.of_step hstep)
      refine ⟨Nat.lt_of_lt_of_le hlt heffect.size_objects_le, fun halive => ?_⟩
      exact Config.relation?_kept hrun.sound hstep hrelation halive (hkept c₀ List.mem_cons_self)
    | perform hrun hreply hop => exact ⟨hlt, fun _ => hrelation⟩
  | cons e later ih =>
    have hkept' : ∀ d ∈ later ++ [c₀], d.rebinding? ≠ some (i, none) :=
      fun d hd => hkept d (List.mem_cons_of_mem _ hd)
    cases hrun with
    | step hrun hstep =>
      obtain ⟨hlt, hsame⟩ := ih hrun hkept'
      have heffect := Effect.of_transition (.of_step hstep)
      refine ⟨Nat.lt_of_lt_of_le hlt heffect.size_objects_le, fun halive => ?_⟩
      exact Config.relation?_kept hrun.sound hstep (hsame (heffect.alive hlt halive)) halive
        (hkept e List.mem_cons_self)
    | perform hrun hreply hop => exact ih (c := e) hrun hkept'

end Config

end Observable
