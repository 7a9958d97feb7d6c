import Observable.Proofs.Watching

/-!
# What an operation shows of one more observer

Three actions measure the list of an object: `count`, `isEmpty` and `describe`
(`World.measured?`). Where the list of the watched object is measured, the reply tells of one more
listener (`Reply.more`). Every other action replies the same and announces the same in both worlds,
and after every action the worlds are still alike (`World.Watched.act`).
-/

namespace Observable

variable {V : Type}

/-! ## Replies -/

/-- The same thing with one more listener. -/
def Description.more : Description V → Description V
  | .property v bound i n => .property v bound i (n + 1)
  | .binding v i n => .binding v i (n + 1)
  | .view v bound i n => .view v bound i (n + 1)
  | .set i n => .set i (n + 1)
  | .listener => .listener

/-- What measuring a list yields when the list has one more listener. -/
def Reply.more : Reply V → Reply V
  | .done (.count n) => .done (.count (n + 1))
  | .done (.flag _) => .done (.flag false)
  | .done (.description d) => .done (.description d.more)
  | r => r

/-! ## Names and measured lists -/

/-- The names that an action mentions. -/
def Action.names : Action V → List String
  | .property name _ _ _ | .listenerSet name | .listener name _ | .drop name | .get name
  | .unbind name | .isBound name | .count name | .isEmpty name | .id name | .display name
  | .describe name | .drain name _ => [name]
  | .channel name other | .view name other | .copy name other | .weak name other
  | .bind name other | .add name other | .remove name other | .contains name other
  | .sameId name other | .sameListener name other => [name, other]
  | .compare _ _ | .constant _ => []

/-- The names that an operation mentions, apart from what its callbacks do. -/
def Op.names : Op V → List String
  | .act a => a.names
  | .set name _ => [name]
  | .notify name observed _ _ => [name, observed]
  | .wrap name as _ => [name, as]

/-- Whether the reply to an action tells how long the list of an object is. -/
def Action.measures : Action V → Bool
  | .count _ | .isEmpty _ | .describe _ => true
  | _ => false

/-- The object whose list an action measures. -/
def World.measured? (w : World V) : Action V → Option Id
  | .count name | .isEmpty name | .describe name => w.find? name Handle.held?
  | _ => none

theorem Action.measures_of_measured? {w : World V} {a : Action V} {i : Id}
    (hmeasured : w.measured? a = some i) : a.measures = true := by
  cases a with
  | count | isEmpty | describe => rfl
  | _ => cases hmeasured

/-! ## Effects -/

/-- Two effects in worlds of which the second has one more observer; the reply becomes what `f`
makes of it. -/
structure Effect.Watched (o : Id) (m : ListenerId) (hidden : List String) (f : Reply V → Reply V)
    (e e' : Effect V) : Prop where
  world : e.world.Watched o m hidden e'.world
  traces : e'.traces = e.traces
  reply : e'.reply = f e.reply

namespace World

namespace Watched

variable {o : Id} {m : ListenerId} {hidden : List String} {w w' : World V}

theorem replies (hw : w.Watched o m hidden w') {f : Reply V → Reply V} {r r' : Reply V}
    (hr : r' = f r) : Effect.Watched o m hidden f (w.replies r) (w'.replies r') :=
  ⟨hw, rfl, hr⟩

theorem named (hw : w.Watched o m hidden w') (held : List Id) {n : String} (hn : n ∉ hidden)
    (h : Handle) :
    Effect.Watched o m hidden id (w.named held n h) (w'.named held n (h.shift m)) :=
  ⟨hw.assign held hn h, rfl, rfl⟩

theorem withLive {α : Type} (hw : w.Watched o m hidden w') {f : Reply V → Reply V}
    {found : Option α} {g : α → α} {go go' : α → Effect V}
    (hunknown : f .unknownName = .unknownName)
    (hgo : ∀ a, found = some a → Effect.Watched o m hidden f (go a) (go' (g a))) :
    Effect.Watched o m hidden f (w.withLive found go) (w'.withLive (found.map g) go') := by
  cases found with
  | none => exact hw.replies hunknown.symm
  | some a => exact hgo a rfl

/-- What goes on with the same number goes on in the same way. -/
theorem withSame {α : Type} (hw : w.Watched o m hidden w') {found found' : Option α}
    {go go' : α → Effect V} (hfound : found' = found)
    (hgo : ∀ a, found = some a → Effect.Watched o m hidden id (go a) (go' a)) :
    Effect.Watched o m hidden id (w.withLive found go) (w'.withLive found' go') := by
  rw [hfound]
  cases found with
  | none => exact hw.replies rfl
  | some a => exact hgo a rfl

theorem withName {α : Type} (hw : w.Watched o m hidden w') {n : String} (hn : n ∉ hidden)
    {f : Reply V → Reply V} {select : Handle → Option α} {g : α → α} {go go' : α → Effect V}
    (hselect : ∀ h : Handle, select (h.shift m) = (select h).map g)
    (hunknown : f .unknownName = .unknownName)
    (hgo : ∀ a, w.find? n select = some a → Effect.Watched o m hidden f (go a) (go' (g a))) :
    Effect.Watched o m hidden f (w.withName n select go) (w'.withName n select go') := by
  unfold World.withName
  rw [hw.find? hn hselect]
  cases hfind : w.find? n select with
  | none => exact hw.replies hunknown.symm
  | some a => exact hgo a hfind

/-- What goes on with the same object goes on in the same way. -/
theorem withObject {α : Type} (hw : w.Watched o m hidden w') {n : String} (hn : n ∉ hidden)
    {select : Handle → Option α} {go go' : α → Effect V}
    (hselect : ∀ h : Handle, select (h.shift m) = select h)
    (hgo : ∀ a, w.find? n select = some a → Effect.Watched o m hidden id (go a) (go' a)) :
    Effect.Watched o m hidden id (w.withName n select go) (w'.withName n select go') :=
  hw.withName hn (g := id) (fun h => by rw [hselect, Option.map_id, id]) rfl hgo

theorem remove (hw : w.Watched o m hidden w') (i : Id) (r : Registration) :
    Effect.Watched o m hidden id (w.remove i r) (w'.remove i (r.shift m)) := by
  unfold World.remove
  rw [hw.alive, (hw.joined i).contains r]
  split
  · exact hw.replies rfl
  · exact ⟨hw.unregister i r, rfl, rfl⟩

theorem bind (hw : w.Watched o m hidden w') (i source : Id) :
    Effect.Watched o m hidden id (w.bind i source) (w'.bind i source) := by
  apply hw.withSame (hw.property? i)
  intro p _
  split
  · exact hw.replies rfl
  · split
    · exact hw.replies rfl
    · exact ⟨(hw.register source (.bound i)).follow i (some source), rfl, rfl⟩

theorem unbind (hw : w.Watched o m hidden w') (i : Id) :
    Effect.Watched o m hidden id (w.unbind i) (w'.unbind i) := by
  apply hw.withSame (hw.property? i)
  intro p _
  cases p.source with
  | none => exact hw.replies rfl
  | some source =>
    have h := (hw.follow i none).remove source (.bound i)
    exact ⟨h.world, rfl, h.reply⟩

/-! ### Actions that measure a list -/

/-- A measured list is the watched one, which is longer by one, or another one. -/
theorem length_cases (hw : w.Watched o m hidden w') {i : Id} (halive : w.alive i = true) :
    (some i = some o ∧ (w'.registrations i).length = (w.registrations i).length + 1) ∨
      (some i ≠ some o ∧ (w'.registrations i).length = (w.registrations i).length) := by
  rw [hw.length halive]
  by_cases h : i = o
  · exact .inl ⟨congrArg some h, by rw [if_pos h]⟩
  · exact .inr ⟨fun heq => h (Option.some.inj heq), by rw [if_neg h]; rfl⟩

/-- What a thing looks like changes only in the length of the list. -/
theorem describe? (hw : w.Watched o m hidden w') {h : Handle}
    {f : Description V → Description V} (hmore : h.held? = some o → f = Description.more)
    (hsame : h.held? ≠ some o → f = id)
    (hlive : ∀ i, h.held? = some i → w.alive i = true) :
    w'.describe? (h.shift m) = (w.describe? h).map f := by
  cases h with
  | property i | view i =>
    simp only [Handle.shift, World.describe?, hw.property?]
    cases w.property? i with
    | none => rfl
    | some p =>
      obtain ⟨heq, hlength⟩ | ⟨heq, hlength⟩ := hw.length_cases (hlive i rfl)
      · simp [hmore heq, hlength, Description.more]
      · simp [hsame heq, hlength]
  | binding i =>
    simp only [Handle.shift, World.describe?, hw.binding?]
    cases w.binding? i with
    | none => rfl
    | some b =>
      obtain ⟨heq, hlength⟩ | ⟨heq, hlength⟩ := hw.length_cases (hlive i rfl)
      · simp [hmore heq, hlength, Description.more]
      · simp [hsame heq, hlength]
  | set i =>
    simp only [Handle.shift, World.describe?, hw.alive, hlive i rfl]
    obtain ⟨heq, hlength⟩ | ⟨heq, hlength⟩ := hw.length_cases (hlive i rfl)
    · simp [hmore heq, hlength, Description.more]
    · simp [hsame heq, hlength]
  | weak | listener | receiver =>
    rw [hsame (by simp [Handle.held?]), Option.map_id]
    rfl

/-- The reply to an action that measures a list depends on its length. -/
theorem measure (hw : w.Watched o m hidden w') {n : String} (hn : n ∉ hidden)
    {f : Reply V → Reply V} (hmore : w.find? n Handle.held? = some o → f = Reply.more)
    (hsame : w.find? n Handle.held? ≠ some o → f = id)
    (hlive : ∀ i, w.find? n Handle.held? = some i → w.alive i = true)
    (reply : List Registration → Reply V)
    (hreply : ∀ l l' : List Registration, l'.length = l.length → reply l' = reply l)
    (hreplyMore : ∀ l l' : List Registration, l'.length = l.length + 1 →
      reply l' = (reply l).more) :
    Effect.Watched o m hidden f
      (w.withName n Handle.listened? fun i => w.replies (reply (w.registrations i)))
      (w'.withName n Handle.listened? fun i => w'.replies (reply (w'.registrations i))) := by
  have hunknown : f .unknownName = .unknownName := by
    by_cases h : w.find? n Handle.held? = some o
    · rw [hmore h]
      rfl
    · rw [hsame h]
      rfl
  refine hw.withName hn (g := id) (fun h => ?_) hunknown fun i hi => hw.replies ?_
  · rw [Handle.listened?_shift, Option.map_id, id]
  · obtain ⟨heq, hlength⟩ | ⟨heq, hlength⟩ := hw.length_cases (hlive i hi)
    · rw [hmore (hi.trans heq)]
      exact hreplyMore _ _ hlength
    · rw [hsame fun h => heq (hi.symm.trans h)]
      exact hreply _ _ hlength

theorem act_describe [BEq V] (hw : w.Watched o m hidden w') (held : List Id) {n : String}
    (hn : n ∉ hidden) {f : Reply V → Reply V}
    (hmore : w.find? n Handle.held? = some o → f = Reply.more)
    (hsame : w.find? n Handle.held? ≠ some o → f = id)
    (hlive : ∀ i, w.find? n Handle.held? = some i → w.alive i = true) :
    Effect.Watched o m hidden f (w.act held (.describe n)) (w'.act held (.describe n)) := by
  -- What becomes of the reply, becomes of the description in it.
  obtain ⟨g, hgmore, hgsame, hunknown, hdone⟩ : ∃ g : Description V → Description V,
      (w.find? n Handle.held? = some o → g = Description.more) ∧
      (w.find? n Handle.held? ≠ some o → g = id) ∧ f .unknownName = .unknownName ∧
      ∀ d, f (.done (.description d)) = .done (.description (g d)) := by
    by_cases h : w.find? n Handle.held? = some o
    · rw [hmore h]
      exact ⟨Description.more, fun _ => rfl, fun hne => absurd h hne, rfl, fun _ => rfl⟩
    · rw [hsame h]
      exact ⟨id, fun heq => absurd heq h, fun _ => rfl, rfl, fun _ => rfl⟩
  refine hw.withName hn (fun _ => rfl) hunknown fun x hx => ?_
  have hheld : w.find? n Handle.held? = x.held? := by
    obtain ⟨y, hy, heq⟩ := names_find?_of_find? hx
    cases heq
    rw [World.find?, hy]
    rfl
  rw [hheld] at hgmore hgsame hlive
  rw [hw.describe? hgmore hgsame hlive]
  exact hw.withLive hunknown fun d _ => hw.replies (hdone d).symm

/-- An action that measures no list replies the same. -/
theorem act_same [BEq V] (hw : w.Watched o m hidden w') (held : List Id) {a : Action V}
    (hnames : ∀ n ∈ a.names, n ∉ hidden) (ha : a.measures = false) :
    Effect.Watched o m hidden id (w.act held a) (w'.act held a) := by
  cases a
  all_goals
    simp only [Action.names, List.forall_mem_cons, List.not_mem_nil, false_implies, implies_true,
      and_true] at hnames
  case property name value validate report =>
    have h := (hw.create (.property ⟨value, validate, report, none⟩)).named held hnames
      (.property w.objects.size)
    rw [World.act, World.act, hw.size]
    exact h
  case listenerSet name =>
    have h := (hw.create .bare).named held hnames (.set w.objects.size)
    rw [World.act, World.act, hw.size]
    exact h
  case listener name body =>
    have h := (hw.createListener (.callback 0 body)).named held hnames
      (.listener w.listeners.size)
    rw [Handle.shift, shift_of_le hw.le, ← hw.sizeListeners] at h
    exact h
  case channel name receiver =>
    have h := ((hw.createListener (.channel [] 0)).assign held hnames.1
      (.listener w.listeners.size)).named held hnames.2 (.receiver w.listeners.size)
    rw [Handle.shift, Handle.shift, shift_of_le hw.le, ← hw.sizeListeners] at h
    exact h
  case view name as =>
    exact hw.withObject hnames.1 (Handle.readable?_shift m) fun i _ =>
      hw.named held hnames.2 (.view i)
  case copy name as =>
    exact hw.withName hnames.1 (fun _ => rfl) rfl fun h _ => hw.named held hnames.2 h
  case weak name as =>
    exact hw.withObject hnames.1 (Handle.listened?_shift m) fun i _ =>
      hw.named held hnames.2 (.weak i)
  case drop name =>
    exact hw.withName hnames (g := Handle.shift m) (fun _ => rfl) rfl fun _ _ =>
      ⟨hw.forget held hnames, rfl, rfl⟩
  case get name =>
    exact hw.withObject hnames (Handle.observable?_shift m)
      fun i _ => hw.withSame (hw.value? i) fun v _ => hw.replies rfl
  case bind name target =>
    exact hw.withObject hnames.1 (Handle.property?_shift m) fun i _ =>
      hw.withObject hnames.2 (Handle.observable?_shift m) fun source _ => hw.bind i source
  case unbind name =>
    exact hw.withObject hnames (Handle.property?_shift m) fun i _ => hw.unbind i
  case isBound name =>
    exact hw.withObject hnames (Handle.readable?_shift m)
      fun i _ => hw.replies (by rw [hw.isBound]; rfl)
  case add name listener =>
    exact hw.withObject hnames.1 (Handle.listened?_shift m)
      fun i _ => hw.withName hnames.2 (Handle.listener?_shift m)
        rfl fun l _ => ⟨hw.register i (.listener l), rfl, rfl⟩
  case remove name listener =>
    exact hw.withObject hnames.1 (Handle.numbered?_shift m)
      fun i _ => hw.withName hnames.2 (Handle.listener?_shift m)
        rfl fun l _ => hw.remove i (.listener l)
  case contains name listener =>
    exact hw.withObject hnames.1 (Handle.listened?_shift m)
      fun i _ => hw.withName hnames.2 (Handle.listener?_shift m)
        rfl fun l _ => hw.replies (by rw [← (hw.joined i).contains (.listener l)]; rfl)
  case count | isEmpty | describe => cases ha
  case id name =>
    exact hw.withObject hnames (Handle.numbered?_shift m)
      fun i _ => hw.replies rfl
  case sameId name other =>
    exact hw.withObject hnames.1 (Handle.numbered?_shift m)
      fun i _ => hw.withObject hnames.2 (Handle.numbered?_shift m)
        fun j _ => hw.replies rfl
  case sameListener name other =>
    refine hw.withName hnames.1 (Handle.listener?_shift m) rfl
      fun l _ => hw.withName hnames.2 (Handle.listener?_shift m)
        rfl fun k _ => hw.replies ?_
    have heq : (shift m l == shift m k) = (l == k) := by
      rw [Bool.eq_iff_iff, beq_iff_eq, beq_iff_eq, (shift_injective m).eq_iff]
    rw [heq]
    rfl
  case drain receiver asText =>
    refine hw.withName hnames (Handle.receiver?_shift m) rfl
      fun l _ => hw.withSame (hw.listeners l) fun queue _ =>
        ⟨hw.alterListener l Listener.drain, rfl, rfl⟩
  case display name =>
    exact hw.withObject hnames (Handle.observable?_shift m)
      fun i _ => hw.withSame (hw.value? i) fun v _ => hw.replies rfl
  case compare | constant => exact hw.replies rfl

/-- Every action keeps the two worlds alike, and shows no more of the observer than one more
listener in a list that it measures. -/
theorem act [BEq V] (hw : w.Watched o m hidden w') (held : List Id) {a : Action V}
    (hnames : ∀ n ∈ a.names, n ∉ hidden)
    (hlive : ∀ n i, w.find? n Handle.held? = some i → w.alive i = true)
    {f : Reply V → Reply V} (hmore : w.measured? a = some o → f = Reply.more)
    (hsame : w.measured? a ≠ some o → f = id) :
    Effect.Watched o m hidden f (w.act held a) (w'.act held a) := by
  cases hmeasures : a.measures with
  | false =>
    have hid : f = id := by
      apply hsame
      intro heq
      rw [Action.measures_of_measured? heq] at hmeasures
      cases hmeasures
    subst hid
    exact hw.act_same held hnames hmeasures
  | true =>
    cases a with
    | count n =>
      refine hw.measure (hnames n (by simp [Action.names])) hmore hsame (hlive n)
        (fun l => .done (.count l.length)) ?_ ?_
      · intro l l' hl
        rw [hl]
      · intro l l' hl
        rw [hl]
        rfl
    | isEmpty n =>
      refine hw.measure (hnames n (by simp [Action.names])) hmore hsame (hlive n)
        (fun l => .done (.flag l.isEmpty)) ?_ ?_
      · intro l l' hl
        cases l <;> cases l' <;> simp_all
      · intro l l' hl
        cases l' with
        | nil => cases hl
        | cons => rfl
    | describe n =>
      exact hw.act_describe held (hnames n (by simp [Action.names])) hmore hsame (hlive n)
    | _ => cases hmeasures

/-- Dropping a name that only the second world knows changes nothing that can be seen. -/
theorem act_drop [BEq V] (hw : w.Watched o m hidden w') (held : List Id) {n : String}
    (hn : n ∈ hidden) :
    w.Watched o m hidden (w'.act held (.drop n)).world ∧ (w'.act held (.drop n)).traces = [] := by
  simp only [World.act, World.withName]
  split
  · exact ⟨hw, rfl⟩
  · exact ⟨hw.forget_hidden held hn, rfl⟩

end Watched

/-- A name that was not in use is given a handle. -/
theorem assign_fresh {w : World V} (held : List Id) {n : String} (hn : w.names.find? n = none)
    (h : Handle) : w.assign held n h = { w with names := w.names.insert n h } := by
  simp [assign, discard, hn]

theorem act_channel [BEq V] {w : World V} (held : List Id) {name receiver : String}
    (hne : name ≠ receiver) (hname : w.names.find? name = none)
    (hreceiver : w.names.find? receiver = none) :
    w.act held (.channel name receiver) =
      { world := { w with
          listeners := w.listeners.push (.channel [] 0)
          names := (w.names.insert name (.listener w.listeners.size)).insert receiver
            (.receiver w.listeners.size) }
        reply := .done .unit } := by
  have hfirst := assign_fresh (w := w.createListener (.channel [] 0)) held hname
    (.listener w.listeners.size)
  simp only [act, named, hfirst]
  rw [assign_fresh held]
  · rfl
  · exact (Registry.find?_insert ..).trans ((if_neg hne.symm).trans hreceiver)

theorem act_add [BEq V] {w : World V} (held : List Id) {target name : String} {i : Id}
    {l : ListenerId} (htarget : w.find? target Handle.listened? = some i)
    (hname : w.find? name Handle.listener? = some l) :
    w.act held (.add target name) =
      { world := w.register i (.listener l), reply := .done .unit } := by
  simp [act, withName, htarget, hname, returns, replies]

end World

end Observable
