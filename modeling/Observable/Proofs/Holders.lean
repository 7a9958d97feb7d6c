import Observable.Proofs.Rounds

/-!
# Who keeps an object alive

An object lives as long as a handle in the registry holds it, an operation in progress has looked it
up, or a change is being delivered to it. The last two are read off the past of a run: the operation
has begun and has no reply yet (`Config.LookedUp`), the call of the object's own registration has
begun and has not ended (`Config.Delivering`). That these are all the reasons, and that each of them
suffices, is `Config.Run.alive_iff`.

The frames that wait connect the two sides. An operation that has looked an object up has a frame
that holds it right above its own frames (`Stack.Serves`), a delivery has one right above the call
(`Stack.Delivers`), and no other frame holds anything.
-/

namespace Observable

variable {V : Type}

namespace Stack

/-- The innermost frame belongs to an operation that has looked `i` up. -/
inductive Serves (i : Id) (k : Stack V .reply) : (a : Awaits) × Stack V a → Prop
  | setting : Serves i k ⟨_, .setting i k⟩
  | wrapping (name : String) (convert : V → Script V .converter) :
    Serves i k ⟨_, .wrapping i name convert k⟩
  | notifying (observed : Id) : Serves i k ⟨_, .notifying i observed k⟩
  | announcing (set : Id) : Serves i k ⟨_, .notifying set i k⟩

/-- The innermost frame belongs to a call that delivers a change to `i`. -/
inductive Delivers (i : Id) (k : Stack V .call) : (a : Awaits) × Stack V a → Prop
  | following : Delivers i k ⟨_, .following i k⟩
  | converting : Delivers i k ⟨_, .converting i k⟩
  | recomputing : Delivers i k ⟨_, .recomputing i k⟩

theorem Serves.mem_tails {i : Id} {k : Stack V .reply} {x : (a : Awaits) × Stack V a}
    (hx : Serves i k x) : ⟨_, k⟩ ∈ x.2.tails := by
  cases hx <;> exact List.mem_cons_of_mem _ (mem_tails_self k)

theorem Serves.depth {i : Id} {k : Stack V .reply} {x : (a : Awaits) × Stack V a}
    (hx : Serves i k x) : x.2.depth = k.depth + 1 := by
  cases hx <;> rfl

theorem Delivers.mem_tails {i : Id} {k : Stack V .call} {x : (a : Awaits) × Stack V a}
    (hx : Delivers i k x) : ⟨_, k⟩ ∈ x.2.tails := by
  cases hx <;> exact List.mem_cons_of_mem _ (mem_tails_self k)

theorem Delivers.depth {i : Id} {k : Stack V .call} {x : (a : Awaits) × Stack V a}
    (hx : Delivers i k x) : x.2.depth = k.depth + 1 := by
  cases hx <;> rfl

theorem Serves.mem_holds {i : Id} {k : Stack V .reply} {x : (a : Awaits) × Stack V a}
    (hx : Serves i k x) : i ∈ x.2.holds := by
  cases hx with
  | announcing => exact List.mem_cons_of_mem _ List.mem_cons_self
  | _ => exact List.mem_cons_self

theorem Delivers.mem_holds {i : Id} {k : Stack V .call} {x : (a : Awaits) × Stack V a}
    (hx : Delivers i k x) : i ∈ x.2.holds := by
  cases hx <;> exact List.mem_cons_self

/-- What a part of the stack holds, the stack holds. -/
theorem mem_holds_of_mem_tails {i : Id} {a : Awaits} {k : Stack V a}
    {x : (b : Awaits) × Stack V b} (hx : x ∈ k.tails) (hi : i ∈ x.2.holds) : i ∈ k.holds := by
  induction k with
  | idle =>
    obtain rfl := List.mem_singleton.1 hx
    exact hi
  | setting | following | converting | wrapping | recomputing =>
    rename_i ih
    rcases List.mem_cons.1 hx with rfl | hx
    · exact hi
    · exact List.mem_cons_of_mem _ (ih hx)
  | notifying =>
    rename_i ih
    rcases List.mem_cons.1 hx with rfl | hx
    · exact hi
    · exact List.mem_cons_of_mem _ (List.mem_cons_of_mem _ (ih hx))
  | _ =>
    rename_i ih
    rcases List.mem_cons.1 hx with rfl | hx
    · exact hi
    · exact ih hx

/-- What is held is held by an operation that has looked it up, or by a delivery. -/
theorem exists_of_mem_holds {i : Id} {a : Awaits} {k : Stack V a} (hi : i ∈ k.holds) :
    ∃ x ∈ k.tails, (∃ l, Serves i l x) ∨ ∃ l, Delivers i l x := by
  have hbelow : ∀ {b : Awaits} {k : Stack V b} {y : (a : Awaits) × Stack V a},
      (∃ x ∈ k.tails, (∃ l, Serves i l x) ∨ ∃ l, Delivers i l x) →
        ∃ x ∈ y :: k.tails, (∃ l, Serves i l x) ∨ ∃ l, Delivers i l x := by
    rintro b k y ⟨x, hx, hholds⟩
    exact ⟨x, List.mem_cons_of_mem _ hx, hholds⟩
  induction k with
  | idle => cases hi
  | setting j k ih =>
    rcases List.mem_cons.1 hi with rfl | hi
    · exact ⟨_, List.mem_cons_self, .inl ⟨k, .setting⟩⟩
    · exact hbelow (ih hi)
  | wrapping j name convert k ih =>
    rcases List.mem_cons.1 hi with rfl | hi
    · exact ⟨_, List.mem_cons_self, .inl ⟨k, .wrapping name convert⟩⟩
    · exact hbelow (ih hi)
  | notifying j observed k ih =>
    rcases List.mem_cons.1 hi with rfl | hi
    · exact ⟨_, List.mem_cons_self, .inl ⟨k, .notifying observed⟩⟩
    · rcases List.mem_cons.1 hi with rfl | hi
      · exact ⟨_, List.mem_cons_self, .inl ⟨k, .announcing j⟩⟩
      · exact hbelow (ih hi)
  | following j k ih =>
    rcases List.mem_cons.1 hi with rfl | hi
    · exact ⟨_, List.mem_cons_self, .inr ⟨k, .following⟩⟩
    · exact hbelow (ih hi)
  | converting j k ih =>
    rcases List.mem_cons.1 hi with rfl | hi
    · exact ⟨_, List.mem_cons_self, .inr ⟨k, .converting⟩⟩
    · exact hbelow (ih hi)
  | recomputing j k ih =>
    rcases List.mem_cons.1 hi with rfl | hi
    · exact ⟨_, List.mem_cons_self, .inr ⟨k, .recomputing⟩⟩
    · exact hbelow (ih hi)
  | _ =>
    rename_i ih
    exact hbelow (ih hi)

/-- What fitting frames hold is there. -/
theorem Fits.alive {w : World V} {a : Awaits} {k : Stack V a} (hk : k.Fits w.shape?) {i : Id}
    (hi : i ∈ k.holds) : w.alive i = true := by
  induction k with
  | idle => cases hi
  | setting j k ih | following j k ih | converting j k ih | recomputing j k ih =>
    rcases List.mem_cons.1 hi with rfl | hi
    · exact World.alive_of_shape? hk.1
    · exact ih hk.2 hi
  | wrapping j name convert k ih =>
    rcases List.mem_cons.1 hi with rfl | hi
    · exact hk.1.elim World.alive_of_shape? World.alive_of_shape?
    · exact ih hk.2 hi
  | notifying j observed k ih =>
    rcases List.mem_cons.1 hi with rfl | hi
    · exact World.alive_of_shape? hk.1
    · rcases List.mem_cons.1 hi with rfl | hi
      · exact hk.2.1.elim World.alive_of_shape? World.alive_of_shape?
      · exact ih hk.2.2 hi
  | _ =>
    rename_i ih
    exact ih hk hi

end Stack

/-! ## Operations and deliveries in progress -/

/-- The objects that an operation looks up by name and works on until it has its reply. -/
def World.lookups (w : World V) : Op V → List Id
  | .act _ => []
  | .set name _ => (w.find? name Handle.property?).toList
  | .wrap name _ _ => (w.find? name Handle.observable?).toList
  | .notify name observed _ _ =>
    (w.find? name Handle.set?).toList ++ (w.find? observed Handle.observable?).toList

namespace Config

/-- An operation with the frames of `k` below it has looked `i` up; it has begun and has no reply
yet. -/
def Serving (past : List (Config V)) (c : Config V) (i : Id) (k : Stack V .reply) : Prop :=
  ∃ later c₀ before op, past = later ++ c₀ :: before ∧ c₀.focus = .operate op k ∧
    i ∈ c₀.state.world.lookups op ∧ ∀ d ∈ c :: later, d.Waits k ∧ ∀ r, d.focus ≠ .reply r k

/-- An operation in progress has looked `i` up. -/
def LookedUp (past : List (Config V)) (c : Config V) (i : Id) : Prop := ∃ k, Serving past c i k

/-- The call of a registration of `i`, after which a round over the frames of `k` has still to call
`rest`, has begun and has not ended. -/
def Calling (past : List (Config V)) (c : Config V) (i : Id) (rest : List Registration)
    (observed : Id) (old new : V) (k : Stack V .round) : Prop :=
  ∃ later c₀ before r, past = later ++ c₀ :: before ∧
    c₀.focus = .round (r :: rest) observed old new k ∧ r.target? = some i ∧
    ∀ d ∈ c :: later, d.InCall rest observed old new k ∧
      ∀ e, d.focus ≠ .called e (.round rest observed old new k)

/-- A change is being delivered to `i`. -/
def Delivering (past : List (Config V)) (c : Config V) (i : Id) : Prop :=
  ∃ rest observed old new k, Calling past c i rest observed old new k

/-! ## From frames to the past -/

/-- What is in progress stays so while its frame is above the frames below it. -/
theorem Serving.cons {past : List (Config V)} {c d : Config V} {i : Id} {k : Stack V .reply}
    (hc : Serving past c i k) (hd : d.Waits k ∧ ∀ r, d.focus ≠ .reply r k) :
    Serving (c :: past) d i k := by
  obtain ⟨later, c₀, before, op, rfl, hfocus, hi, hopen⟩ := hc
  refine ⟨c :: later, c₀, before, op, rfl, hfocus, hi, fun e he => ?_⟩
  rcases List.mem_cons.1 he with rfl | he
  · exact hd
  · exact hopen e he

theorem Calling.cons {past : List (Config V)} {c d : Config V} {i : Id} {rest : List Registration}
    {observed : Id} {old new : V} {k : Stack V .round} (hc : Calling past c i rest observed old new k)
    (hd : d.InCall rest observed old new k ∧
      ∀ e, d.focus ≠ .called e (.round rest observed old new k)) :
    Calling (c :: past) d i rest observed old new k := by
  obtain ⟨later, c₀, before, r, rfl, hfocus, hr, hopen⟩ := hc
  refine ⟨c :: later, c₀, before, r, rfl, hfocus, hr, fun e he => ?_⟩
  rcases List.mem_cons.1 he with rfl | he
  · exact hd
  · exact hopen e he

/-- An operation has no reply while it has a frame above those below it. -/
theorem waits_of_serves {c : Config V} {i : Id} {k : Stack V .reply} {x : (a : Awaits) × Stack V a}
    (hmem : x ∈ c.focus.frames.2.tails) (hx : Stack.Serves i k x) :
    c.Waits k ∧ ∀ r, c.focus ≠ .reply r k := by
  refine ⟨Stack.mem_tails_trans hmem hx.mem_tails, fun r hfocus => ?_⟩
  rw [hfocus] at hmem
  have hle := Stack.depth_le hmem
  rw [hx.depth] at hle
  exact absurd hle (Nat.not_succ_le_self _)

/-- A call has not ended while there is a frame of it above the round. -/
theorem inCall_of_delivers {c : Config V} {i : Id} {rest : List Registration} {observed : Id}
    {old new : V} {k : Stack V .round} {x : (a : Awaits) × Stack V a}
    (hmem : x ∈ c.focus.frames.2.tails) (hx : Stack.Delivers i (.round rest observed old new k) x) :
    c.InCall rest observed old new k ∧
      ∀ e, c.focus ≠ .called e (.round rest observed old new k) := by
  have hdeeper : x.2.depth ≤ c.focus.frames.2.depth := Stack.depth_le hmem
  rw [hx.depth] at hdeeper
  refine ⟨⟨Stack.mem_tails_trans hmem hx.mem_tails, fun hfocus => ?_⟩, fun e hfocus => ?_⟩
  · rw [hfocus] at hdeeper
    exact absurd hdeeper (Nat.not_succ_le_self _)
  · rw [hfocus] at hdeeper
    exact absurd hdeeper (Nat.not_succ_le_self _)

variable [BEq V]

/-- Every frame that holds something goes back to the operation or to the call for which it does. -/
theorem Run.accounted {allowed : Op V → Prop} {past : List (Config V)} {c : Config V}
    (hrun : Run allowed past c) {i : Id} {x : (a : Awaits) × Stack V a}
    (hmem : x ∈ c.focus.frames.2.tails) :
    (∀ k, Stack.Serves i k x → Serving past c i k) ∧
      ∀ rest observed old new k, Stack.Delivers i (.round rest observed old new k) x →
        Calling past c i rest observed old new k := by
  induction hrun generalizing x with
  | start hop =>
    obtain rfl := List.mem_singleton.1 hmem
    exact ⟨fun _ h => (nomatch h), fun _ _ _ _ _ h => (nomatch h)⟩
  | perform hrun hreply hop ih =>
    obtain rfl := List.mem_singleton.1 hmem
    exact ⟨fun _ h => (nomatch h), fun _ _ _ _ _ h => (nomatch h)⟩
  | @step past c d hrun hstep ih =>
    rcases (Transition.of_step hstep).pushes hmem with hbefore | hpushes
    · obtain ⟨hserving, hcalling⟩ := ih hbefore
      exact ⟨fun k hx => (hserving k hx).cons (waits_of_serves hmem hx),
        fun rest observed old new k hx =>
          (hcalling rest observed old new k hx).cons (inCall_of_delivers hmem hx)⟩
    · -- A frame that is new belongs to what begins in this step, unless it takes over.
      have hbegins : ∀ {k op}, Stack.Serves i k x → c.focus = .operate op k →
          i ∈ c.state.world.lookups op → Serving (c :: past) d i k := by
        intro k op hx hfocus hi
        refine ⟨[], c, past, op, rfl, hfocus, hi, fun e he => ?_⟩
        obtain rfl := List.mem_singleton.1 he
        exact waits_of_serves hmem hx
      have hcalls : ∀ {r rest observed old new k},
          Stack.Delivers i (.round rest observed old new k) x →
          c.focus = .round (r :: rest) observed old new k → r.target? = some i →
          Calling (c :: past) d i rest observed old new k := by
        intro r rest observed old new k hx hfocus hr
        refine ⟨[], c, past, r, rfl, hfocus, hr, fun e he => ?_⟩
        obtain rfl := List.mem_singleton.1 he
        exact inCall_of_delivers hmem hx
      constructor
      · intro k hx
        cases hpushes with
        | setting hfocus hname =>
          cases hx
          exact hbegins .setting hfocus (by simp [World.lookups, hname])
        | wrapping hfocus hname =>
          cases hx
          exact hbegins (.wrapping ..) hfocus (by simp [World.lookups, hname])
        | notifying hfocus hname hobserved =>
          cases hx with
          | notifying => exact hbegins (.notifying _) hfocus (by simp [World.lookups, hname])
          | announcing => exact hbegins (.announcing _) hfocus (by simp [World.lookups, hobserved])
        | _ => cases hx
      · intro rest observed old new k hx
        cases hpushes with
        | following hfocus =>
          cases hx
          exact hcalls .following hfocus rfl
        | converting hfocus =>
          cases hx
          exact hcalls .converting hfocus rfl
        | recomputing hfocus =>
          cases hx
          -- The round that announces a converted value takes the place of the conversion.
          have hconverting : ⟨_, .converting i (.round rest observed old new k)⟩ ∈
              c.focus.frames.2.tails := by
            rw [hfocus]
            exact Stack.mem_tails_self _
          have hcalling := (ih hconverting).2 rest observed old new k .converting
          exact hcalling.cons (inCall_of_delivers hmem .recomputing)
        | _ => cases hx

/-! ## From the past to frames -/

/-- An operation that has looked something up holds it, or has its reply at once. -/
theorem Transition.serves_of_operate {c d : Config V} (hmove : c.Transition d) {op : Op V}
    {k : Stack V .reply} {i : Id} (hfocus : c.focus = .operate op k)
    (hi : i ∈ c.state.world.lookups op) (hopen : ∀ r, d.focus ≠ .reply r k) :
    ∃ x ∈ d.focus.frames.2.tails, Stack.Serves i k x := by
  cases hmove with
  | act =>
    cases hfocus
    cases hi
  | setUnknown | setBound | notifyUnknown | wrapUnknown =>
    cases hfocus
    exact absurd rfl (hopen _)
  | set v hname =>
    cases hfocus
    simp only [World.lookups, hname, Option.toList_some, List.mem_singleton] at hi
    subst hi
    exact ⟨_, List.mem_cons_of_mem _ List.mem_cons_self, .setting⟩
  | notify old new hname hobserved =>
    cases hfocus
    simp only [World.lookups, hname, hobserved, Option.toList_some, List.mem_append,
      List.mem_singleton] at hi
    rcases hi with rfl | rfl
    · exact ⟨_, List.mem_cons_of_mem _ List.mem_cons_self, .notifying _⟩
    · exact ⟨_, List.mem_cons_of_mem _ List.mem_cons_self, .announcing _⟩
  | wrap as convert hname =>
    cases hfocus
    simp only [World.lookups, hname, Option.toList_some, List.mem_singleton] at hi
    subst hi
    exact ⟨_, List.mem_cons_self, .wrapping _ _⟩
  | _ => cases hfocus

/-- It holds it until it has its reply. -/
theorem Transition.serves {c d : Config V} (hmove : c.Transition d) {k : Stack V .reply} {i : Id}
    {x : (a : Awaits) × Stack V a} (hmem : x ∈ c.focus.frames.2.tails) (hx : Stack.Serves i k x)
    (hopen : ∀ r, d.focus ≠ .reply r k) : x ∈ d.focus.frames.2.tails := by
  rcases hmove.waits hmem with hframes | hstill
  · obtain ⟨s, f⟩ := c
    cases hx with
    | setting =>
      cases f with
      | updated =>
        cases hframes
        cases hmove
        exact absurd rfl (hopen _)
      | _ => cases hframes
    | wrapping =>
      cases f with
      | run script =>
        cases hframes
        cases hmove with
        | wrapped => exact absurd rfl (hopen _)
        | emit => exact Stack.mem_tails_self _
        | perform => exact List.mem_cons_of_mem _ (Stack.mem_tails_self _)
      | _ => cases hframes
    | notifying | announcing =>
      cases f with
      | rounded =>
        cases hframes
        cases hmove
        exact absurd rfl (hopen _)
      | _ => cases hframes
  · exact hstill

/-- A call of something's registration holds it, or ends at once. -/
theorem Transition.delivers_of_round {c d : Config V} (hmove : c.Transition d) {r : Registration}
    {rest : List Registration} {observed : Id} {old new : V} {k : Stack V .round} {i : Id}
    (hfocus : c.focus = .round (r :: rest) observed old new k) (hr : r.target? = some i)
    (hopen : ∀ e, d.focus ≠ .called e (.round rest observed old new k)) :
    ∃ x ∈ d.focus.frames.2.tails, Stack.Delivers i (.round rest observed old new k) x := by
  cases hmove with
  | callGone | send | listen =>
    cases hfocus
    cases hr
  | boundGone | derivedGone =>
    cases hfocus
    exact absurd rfl (hopen _)
  | deliver =>
    cases hfocus
    cases hr
    exact ⟨_, List.mem_cons_of_mem _ List.mem_cons_self, .following⟩
  | convert =>
    cases hfocus
    cases hr
    exact ⟨_, List.mem_cons_self, .converting⟩
  | _ => cases hfocus

/-- It holds it until it has ended. -/
theorem Transition.delivers {c d : Config V} (hmove : c.Transition d) {k : Stack V .call} {i : Id}
    {x : (a : Awaits) × Stack V a} (hmem : x ∈ c.focus.frames.2.tails) (hx : Stack.Delivers i k x)
    (hopen : ∀ e, d.focus ≠ .called e k) :
    ∃ y ∈ d.focus.frames.2.tails, Stack.Delivers i k y := by
  rcases hmove.waits hmem with hframes | hstill
  · obtain ⟨s, f⟩ := c
    cases hx with
    | following =>
      cases f with
      | updated =>
        cases hframes
        cases hmove
        exact absurd rfl (hopen _)
      | _ => cases hframes
    | converting =>
      cases f with
      | run script =>
        cases hframes
        cases hmove with
        | convertedGone => exact absurd rfl (hopen _)
        | converted => exact ⟨_, List.mem_cons_of_mem _ List.mem_cons_self, .recomputing⟩
        | emit => exact ⟨_, Stack.mem_tails_self _, .converting⟩
        | perform => exact ⟨_, List.mem_cons_of_mem _ (Stack.mem_tails_self _), .converting⟩
      | _ => cases hframes
    | recomputing =>
      cases f with
      | rounded =>
        cases hframes
        cases hmove
        exact absurd rfl (hopen _)
      | _ => cases hframes
  · exact ⟨x, hstill, hx⟩

/-- An operation in progress has a frame for everything that it has looked up. -/
theorem Run.serves {allowed : Op V → Prop} {later before : List (Config V)} {c₀ c : Config V}
    (hrun : Run allowed (later ++ c₀ :: before) c) {op : Op V} {k : Stack V .reply} {i : Id}
    (hfocus : c₀.focus = .operate op k) (hi : i ∈ c₀.state.world.lookups op)
    (hopen : ∀ d ∈ c :: later, ∀ r, d.focus ≠ .reply r k) :
    ∃ x ∈ c.focus.frames.2.tails, Stack.Serves i k x := by
  induction later generalizing c with
  | nil =>
    cases hrun with
    | step _ hstep =>
      exact (Transition.of_step hstep).serves_of_operate hfocus hi (hopen c List.mem_cons_self)
    | perform _ hreply _ =>
      obtain ⟨r, hidle⟩ := isSome_reply?_iff.1 hreply
      rw [hidle] at hfocus
      cases hfocus
  | cons d later ih =>
    have hlater : ∀ e ∈ d :: later, ∀ r, e.focus ≠ .reply r k :=
      fun e he => hopen e (List.mem_cons_of_mem _ he)
    cases hrun with
    | step hrun hstep =>
      obtain ⟨x, hmem, hx⟩ := ih hrun hlater
      exact ⟨x, (Transition.of_step hstep).serves hmem hx (hopen c List.mem_cons_self), hx⟩
    | perform hrun hreply _ =>
      obtain ⟨x, hmem, hx⟩ := ih hrun hlater
      obtain ⟨r, hidle⟩ := isSome_reply?_iff.1 hreply
      rw [hidle] at hmem
      obtain rfl := List.mem_singleton.1 hmem
      cases hx

/-- A call in progress has a frame for what it delivers to. -/
theorem Run.delivers {allowed : Op V → Prop} {later before : List (Config V)} {c₀ c : Config V}
    (hrun : Run allowed (later ++ c₀ :: before) c) {r : Registration} {rest : List Registration}
    {observed : Id} {old new : V} {k : Stack V .round} {i : Id}
    (hfocus : c₀.focus = .round (r :: rest) observed old new k) (hr : r.target? = some i)
    (hopen : ∀ d ∈ c :: later, ∀ e, d.focus ≠ .called e (.round rest observed old new k)) :
    ∃ x ∈ c.focus.frames.2.tails, Stack.Delivers i (.round rest observed old new k) x := by
  induction later generalizing c with
  | nil =>
    cases hrun with
    | step _ hstep =>
      exact (Transition.of_step hstep).delivers_of_round hfocus hr (hopen c List.mem_cons_self)
    | perform _ hreply _ =>
      obtain ⟨r, hidle⟩ := isSome_reply?_iff.1 hreply
      rw [hidle] at hfocus
      cases hfocus
  | cons d later ih =>
    have hlater : ∀ e ∈ d :: later, ∀ r, e.focus ≠ .called r (.round rest observed old new k) :=
      fun e he => hopen e (List.mem_cons_of_mem _ he)
    cases hrun with
    | step hrun hstep =>
      obtain ⟨x, hmem, hx⟩ := ih hrun hlater
      exact (Transition.of_step hstep).delivers hmem hx (hopen c List.mem_cons_self)
    | perform hrun hreply _ =>
      obtain ⟨x, hmem, hx⟩ := ih hrun hlater
      obtain ⟨r, hidle⟩ := isSome_reply?_iff.1 hreply
      rw [hidle] at hmem
      obtain rfl := List.mem_singleton.1 hmem
      cases hx

omit [BEq V] in
theorem Sound.alive_of_holds {c : Config V} (hc : c.Sound) {i : Id} (hi : i ∈ c.focus.holds) :
    c.state.world.alive i = true :=
  Stack.Fits.alive hc.frames hi

/-- An object lives exactly as long as a handle holds it, an operation in progress has looked it up,
or a change is being delivered to it. -/
theorem Run.alive_iff {allowed : Op V → Prop} {past : List (Config V)} {c : Config V}
    (hrun : Run allowed past c) (i : Id) :
    c.state.world.alive i = true ↔ c.state.world.names.holds i = true ∨ LookedUp past c i ∨
      Delivering past c i := by
  have hsound := hrun.sound
  constructor
  · intro halive
    refine (hsound.world.owned i halive).imp id fun hheld => ?_
    obtain ⟨x, hmem, ⟨k, hx⟩ | ⟨k, hx⟩⟩ := Stack.exists_of_mem_holds hheld
    · exact .inl ⟨k, (hrun.accounted hmem).1 k hx⟩
    · cases k with
      | round rest observed old new k =>
        exact .inr ⟨rest, observed, old, new, k,
          (hrun.accounted hmem).2 rest observed old new k hx⟩
  · rintro (hnamed | ⟨k, later, c₀, before, op, rfl, hfocus, hi, hopen⟩ |
      ⟨rest, observed, old, new, k, later, c₀, before, r, rfl, hfocus, hr, hopen⟩)
    · obtain ⟨n, h, hfind, hheld⟩ := (Registry.holds_iff _ i).1 hnamed
      exact (hsound.world.names n h hfind).alive hheld
    · obtain ⟨x, hmem, hx⟩ := hrun.serves hfocus hi fun d hd => (hopen d hd).2
      exact hsound.alive_of_holds (Stack.mem_holds_of_mem_tails hmem hx.mem_holds)
    · obtain ⟨x, hmem, hx⟩ := hrun.delivers hfocus hr fun d hd => (hopen d hd).2
      exact hsound.alive_of_holds (Stack.mem_holds_of_mem_tails hmem hx.mem_holds)

end Config

end Observable
