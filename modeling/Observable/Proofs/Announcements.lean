import Observable.Proofs.History

/-!
# What the library announces

Beside what callbacks note, the log has what the library itself announces: the beginning of a round,
the birth of a binding, and that a property was bound or released. `Config.announces` reads off one
step what it announces, and `Config.Announcing` says once what that can be. In particular a round
over the list of an observable is announced in the step that writes its value.
-/

namespace Observable

variable {V : Type}

/-- What the library announced, if it did. -/
def Event.trace? : Event V → Option Trace
  | .trace t => some t
  | _ => none

/-- A callback is about to make a note. -/
def Focus.IsNote : Focus V → Prop
  | .run (.emit _ _) _ => True
  | _ => False

namespace Config

variable [BEq V]

/-- What the library announces in the next step. A callback that makes a note is no announcement. -/
def announces (c : Config V) : List Trace :=
  match c.focus with
  | .run (.emit _ _) _ => []
  | _ =>
    match c.step with
    | none => []
    | some d => (d.state.log.drop c.state.log.length).filterMap Event.trace?

/-- What is added to the log is announced, unless it is a note. -/
theorem announces_of_log {c d : Config V} (hstep : c.step = some d) (hnote : ¬ c.focus.IsNote)
    (new : List Trace) (hlog : d.state.log = c.state.log ++ new.map .trace) :
    c.announces = new := by
  unfold announces
  split
  · next hemit =>
    rw [hemit] at hnote
    exact absurd trivial hnote
  · rw [hstep]
    simp only
    rw [hlog, List.drop_left, List.filterMap_map]
    exact List.filterMap_some

theorem announces_of_act {c d : Config V} {a : Action V} {k : Stack V .reply}
    (hfocus : c.focus = .operate (.act a) k) (hstep : c.step = some d) :
    c.announces = (c.state.world.act k.holds a).traces := by
  apply announces_of_log hstep
  · rw [hfocus]
    exact id
  · obtain ⟨s, f⟩ := c
    cases hfocus
    cases hstep
    rfl

/-- What one step can announce. -/
inductive Announcing (c : Config V) : List Trace → Prop
  /-- An operation without callbacks is performed. -/
  | act {a : Action V} {k : Stack V .reply} (hfocus : c.focus = .operate (.act a) k) :
    Announcing c (c.state.world.act k.holds a).traces
  | silent (hwritten : c.written? = none) : Announcing c []
  | write {i : Id} {v : V} (hwritten : c.written? = some (i, v)) :
    Announcing c [.notifying i (c.state.world.registrations i).length]
  | notify {i : Id} {name observed : String} {old new : V} {k : Stack V .reply}
      (hfocus : c.focus = .operate (.notify name observed old new) k) :
    Announcing c [.notifying i (c.state.world.registrations i).length]
  | wrap {i j : Id} {name : String} {convert : V → Script V .converter} {v : V}
      {k : Stack V .reply}
      (hfocus : c.focus = .run (@Script.stop V .converter v) (.wrapping j name convert k)) :
    Announcing c [.wrapped i j]

/-- A step that adds nothing to the log announces nothing. -/
theorem announces_of_log_eq {c d : Config V} (hstep : c.step = some d)
    (hnote : ¬ c.focus.IsNote) (hlog : d.state.log = c.state.log) : c.announces = [] := by
  apply announces_of_log hstep hnote
  rw [hlog]
  exact (List.append_nil _).symm

theorem announcing_of_step {c d : Config V} (hstep : c.step = some d) :
    c.Announcing c.announces := by
  cases Transition.of_step hstep with
  | act s a k =>
    rw [announces_of_act rfl hstep]
    exact .act rfl
  | emit s e rest k => exact .silent rfl
  | @notify s name observed i j k old new hname hobserved =>
    rw [announces_of_log hstep id [_] rfl]
    exact .notify rfl
  | @write s k old v i hold hne =>
    rw [announces_of_log hstep id [_] rfl]
    exact .write (written?_validated i hold hne)
  | @converted s i old v k hold =>
    rw [announces_of_log hstep id [_] rfl]
    exact .write (written?_converted hold)
  | wrapped s i name convert v k =>
    rw [announces_of_log hstep id [_] rfl]
    exact .wrap rfl
  -- Nothing is announced.
  | gone i v hgone =>
    rw [announces_of_log_eq hstep id rfl]
    exact .silent (by simp [written?, State.written?, hgone])
  | unchanged i hold heq =>
    rw [announces_of_log_eq hstep id rfl]
    exact .silent (by simp [written?, State.written?, hold, heq])
  | convertedGone v k hgone =>
    rw [announces_of_log_eq hstep id rfl]
    exact .silent (by rw [written?_converting, hgone]; rfl)
  | reject | announceFailed =>
    rw [announces_of_log_eq hstep id (by rw [state_fail])]
    exact .silent rfl
  | _ =>
    rw [announces_of_log_eq hstep id rfl]
    exact .silent rfl

end Config

end Observable
