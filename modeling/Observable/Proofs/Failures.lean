import Observable.Proofs.Nesting

/-!
# Where failures come from

An operation fails for a reason of its own, or because a callback failed that ran inside it; then
its failure says in which stage. Whatever callbacks do, a failure that is on its way through updates
and rounds came from a callback (`Config.Run.staged`), so none of them is mistaken for a refusal of
the operation that it reaches.
-/

namespace Observable

variable {V : Type}

/-- The failures that reporters are told of come from callbacks. -/
def Stack.Staged : {a : Awaits} → Stack V a → Prop
  | _, .idle => True
  | _, .script _ below => below.Staged
  | _, .setting _ below => below.Staged
  | _, .following _ below => below.Staged
  | _, .validating _ below => below.Staged
  | _, .reporting _ e below => e.stage?.isSome = true ∧ below.Staged
  | _, .converting _ below => below.Staged
  | _, .wrapping _ _ _ below => below.Staged
  | _, .listening below => below.Staged
  | _, .round _ _ _ _ below => below.Staged
  | _, .notifying _ _ below => below.Staged
  | _, .updating _ _ below => below.Staged
  | _, .recomputing _ below => below.Staged

theorem Stack.Staged.reported {ρ : Role} {k : Stack V (.answer ρ)} (hk : k.Staged) :
    ∀ e, k.reported? = some e → e.stage?.isSome = true := by
  intro e he
  cases k with
  | reporting i e' k =>
    cases he
    exact hk.1
  | _ => cases he

namespace Config

/-- The failures on their way to an operation come from callbacks. -/
structure Staged (c : Config V) : Prop where
  frames : c.focus.frames.2.Staged
  error : ∀ e, c.focus.error? = some e → e.stage?.isSome = true

theorem staged_fail {s : State V} {e : Error} {k : Stack V .update} (hk : k.Staged)
    (he : e.stage?.isSome = true) : (s.fail e k).Staged := by
  have herror : ∀ e', some e = some e' → e'.stage?.isSome = true := by
    intro e' heq
    cases heq
    exact he
  exact State.fail_cases ⟨hk, herror⟩ fun _ _ _ _ => ⟨⟨he, hk⟩, herror⟩

theorem isSome_stage?_during (stage : Stage) (c : Cause) :
    (c.during stage).stage?.isSome = true := by
  simp [Cause.stage?_during]

variable [BEq V]

theorem Staged.transition {c d : Config V} (hc : c.Staged) (hmove : c.Transition d) : d.Staged := by
  obtain ⟨hk, herror⟩ := hc
  cases hmove with
  | act | setUnknown | setBound | notifyUnknown | wrapUnknown => exact ⟨hk, staged_of_none⟩
  | set | notify | wrap => exact ⟨hk, staged_of_none⟩
  | resume => exact ⟨hk, Stack.Staged.reported hk⟩
  | emit => exact ⟨hk, herror⟩
  | perform => exact ⟨hk, staged_of_none⟩
  | gone | unchanged | write | announced => exact ⟨hk, staged_of_none⟩
  | reject s i c k => exact staged_fail hk (isSome_stage?_during .validation c)
  | reported s i e a k => exact ⟨hk.2, herror⟩
  | announceFailed s i old e k => exact staged_fail hk (herror e rfl)
  | setDone | wrapped | notified => exact ⟨hk, staged_of_none⟩
  | followed s r i k =>
    cases r with
    | ok old => exact ⟨hk, staged_of_none⟩
    | error e => exact ⟨hk, herror⟩
  | convertedGone | converted => exact ⟨hk, staged_of_none⟩
  | recomputed => exact ⟨hk, herror⟩
  | roundDone | callGone | send | boundGone | derivedGone => exact ⟨hk, staged_of_none⟩
  | listen | deliver | convert => exact ⟨hk, staged_of_none⟩
  | listened | called => exact ⟨hk, staged_of_none⟩
  | listenFailed s c k =>
    refine ⟨hk, ?_⟩
    intro e he
    cases he
    exact isSome_stage?_during .listener c
  | callFailed => exact ⟨hk, herror⟩

theorem Run.staged {allowed : Op V → Prop} {past : List (Config V)} {c : Config V}
    (hrun : Run allowed past c) : c.Staged := by
  induction hrun with
  | start hop => exact ⟨trivial, staged_of_none⟩
  | step hrun hstep ih => exact ih.transition (.of_step hstep)
  | perform hrun hreply hop ih => exact ⟨trivial, staged_of_none⟩

end Config

end Observable
