import Observable.Proofs.Walk

/-!
# What a walk reads and writes

All that a walk does to a state is to store values, to call listeners and to let events happen
(`Deed`). It stores values in the tree below the object from which it begins, and it calls listeners
that are registered there. Which of these things it does, in which order, and how it ends depends on
the objects of the tree, and on nothing else that could be different in another state: neither on
what is stored elsewhere, nor on how often listeners were called, nor on what channels hold
(`State.Local`, `State.local_walk`).

Locality is kept when functions on states are put together (`State.Local.bind`), so it is shown with
one lemma for each function of the walk.
-/

namespace Observable

variable {V : Type}

/-! ## Trees -/

/-- A change of `root` may be passed on to `x`, or it is a change of `x` itself. -/
def Tree (lists : Id → List Registration) (root x : Id) : Prop :=
  Relation.ReflTransGen (Feeds lists) x root

/-- The listener is registered with an object of the tree. -/
def Hears (lists : Id → List Registration) (root : Id) (l : ListenerId) : Prop :=
  ∃ x, Tree lists root x ∧ .listener l ∈ lists x

theorem Tree.step {lists : Id → List Registration} {root x y : Id} (hx : Tree lists root x)
    (hfeeds : Feeds lists y x) : Tree lists root y :=
  .head hfeeds hx

namespace World

/-- From every object of the tree below a free object one line leads up to that. -/
theorem Linked.line_of_tree {w : World V} (hw : w.Linked) {root x : Id}
    (hroot : w.relation? root = none) (hx : Tree w.registrations root x) :
    ∃ above, w.IsLine (x :: above) ∧ (x :: above).getLast? = some root := by
  induction hx using Relation.ReflTransGen.head_induction_on with
  | refl => exact ⟨[], hroot, rfl⟩
  | head hfeeds _ ih =>
    obtain ⟨above, hline, hlast⟩ := ih
    exact ⟨_, hline.cons_of_feeds hw hfeeds, by rw [List.getLast?_cons_cons]; exact hlast⟩

/-- The trees below two free objects are disjoint, whatever built them. -/
theorem Linked.root_unique {w : World V} (hw : w.Linked) {root root' x : Id}
    (hroot : w.relation? root = none) (hroot' : w.relation? root' = none)
    (hx : Tree w.registrations root x) (hx' : Tree w.registrations root' x) : root = root' := by
  obtain ⟨above, hline, hlast⟩ := hw.line_of_tree hroot hx
  obtain ⟨above', hline', hlast'⟩ := hw.line_of_tree hroot' hx'
  rw [hline.unique hline'] at hlast
  exact Option.some.inj (hlast.symm.trans hlast')

end World

/-! ## Deeds -/

/-- One thing that a walk does to a state. -/
inductive Deed (V : Type) where
  | store (i : Id) (v : V)
  /-- A listener hears of a change. -/
  | tell (l : ListenerId) (c : Change V)
  | emit (e : Event V)

/-- A deed of a walk through the tree below `root`. -/
def Deed.Within (lists : Id → List Registration) (root : Id) : Deed V → Prop
  | .store i _ => Tree lists root i
  | .tell l _ => Hears lists root l
  | .emit _ => True

/-- The event that happens, if the deed is an event. -/
def Deed.event? : Deed V → Option (Event V)
  | .emit e => some e
  | _ => none

namespace Listener

/-- Hears of a change: a channel queues it, and a callback has been called once more. -/
def hear (c : Change V) (x : Listener V) : Listener V := (x.send c).counted

/-- What a callback runs when it is called. -/
def body? : Listener V → Option (Call V → Script V .listener)
  | .callback _ body => some body
  | .channel _ _ => none

@[simp] theorem body?_hear (c : Change V) (x : Listener V) : (x.hear c).body? = x.body? := by
  cases x <;> rfl

end Listener

/-- Every listener is passive. -/
def World.Attentive (w : World V) : Prop := ∀ l x, w.listeners.get? l = some x → x.IsPassive

theorem World.Attentive.congr {w w' : World V} (hw : w.Attentive)
    (hbody : ∀ l, (w'.listeners.get? l).map Listener.body? =
      (w.listeners.get? l).map Listener.body?) : w'.Attentive := by
  intro l x hx
  have hsame := hbody l
  rw [hx] at hsame
  obtain ⟨y, hy, hsame⟩ := Option.map_eq_some_iff.1 hsame.symm
  have hpassive := hw l y hy
  cases x with
  | channel sent taken => trivial
  | callback calls body =>
    cases y with
    | channel sent taken => cases hsame
    | callback calls' body' =>
      cases hsame
      exact hpassive

namespace State

/-- The state after a deed. -/
def undergo (s : State V) : Deed V → State V
  | .store i v => { s with world := s.world.store i v }
  | .tell l c => { s with world := s.world.alterListener l (Listener.hear c) }
  | .emit e => s.emit e

/-- The state after some deeds. -/
def after (s : State V) (deeds : List (Deed V)) : State V := deeds.foldl undergo s

theorem after_append (s : State V) (deeds more : List (Deed V)) :
    s.after (deeds ++ more) = (s.after deeds).after more :=
  List.foldl_append

theorem after_events (s : State V) (events : List (Event V)) :
    s.after (events.map .emit) = { s with log := s.log ++ events } := by
  induction events generalizing s with
  | nil => simp [after]
  | cons e events ih =>
    have hrest := ih (s.emit e)
    simp only [emit, List.append_assoc, List.singleton_append] at hrest
    exact hrest

theorem log_after (s : State V) (deeds : List (Deed V)) :
    (s.after deeds).log = s.log ++ deeds.filterMap Deed.event? := by
  induction deeds generalizing s with
  | nil => simp [after]
  | cons d deeds ih =>
    have hrest := ih (s.undergo d)
    cases d with
    | store | tell => exact hrest
    | emit e =>
      simp only [undergo, emit, List.append_assoc, List.singleton_append] at hrest
      exact hrest

theorem rewritten_after (s : State V) (deeds : List (Deed V)) :
    s.world.Rewritten (fun _ => True) (s.after deeds).world := by
  induction deeds generalizing s with
  | nil => exact .refl ..
  | cons d deeds ih =>
    have hfirst : s.world.Rewritten (fun _ => True) (s.undergo d).world := by
      cases d with
      | store i v => exact .store _ trivial v
      | tell l c => exact .alterListener _ _ fun _ _ hx => hx.of_counted.of_send
      | emit e => exact .refl ..
    exact hfirst.trans (ih _)

/-- What is registered as a listener keeps its body. -/
theorem body?_after (s : State V) (deeds : List (Deed V)) (l : ListenerId) :
    ((s.after deeds).world.listeners.get? l).map Listener.body? =
      (s.world.listeners.get? l).map Listener.body? := by
  induction deeds generalizing s with
  | nil => rfl
  | cons d deeds ih =>
    refine (ih (s.undergo d)).trans ?_
    cases d with
    | store | emit => rfl
    | tell m c =>
      show ((s.world.listeners.modify m (Listener.hear c)).get? l).map Listener.body? = _
      rw [Table.get?_modify]
      split
      · rw [Option.map_map]
        cases s.world.listeners.get? l <;> simp
      · rfl

/-! ## States that agree in part -/

/-- Two states have the same objects where `T` holds and the same listeners where `F` holds. -/
structure Matches (T : Id → Prop) (F : ListenerId → Prop) (s t : State V) : Prop where
  object : ∀ x, T x → t.world.object? x = s.world.object? x
  listener : ∀ l, F l → t.world.listeners.get? l = s.world.listeners.get? l

namespace Matches

variable {T : Id → Prop} {F : ListenerId → Prop} {s t u : State V}

theorem refl (s : State V) : s.Matches T F s := ⟨fun _ _ => rfl, fun _ _ => rfl⟩

theorem symm (h : s.Matches T F t) : t.Matches T F s :=
  ⟨fun x hx => (h.object x hx).symm, fun l hl => (h.listener l hl).symm⟩

theorem trans (h : s.Matches T F t) (h' : t.Matches T F u) : s.Matches T F u :=
  ⟨fun x hx => (h'.object x hx).trans (h.object x hx),
    fun l hl => (h'.listener l hl).trans (h.listener l hl)⟩

theorem undergo (h : s.Matches T F t) (d : Deed V) : (s.undergo d).Matches T F (t.undergo d) := by
  cases d with
  | store i v =>
    refine ⟨fun x hx => ?_, h.listener⟩
    show (t.world.alter i _).object? x = (s.world.alter i _).object? x
    rw [World.object?_alter, World.object?_alter, h.object x hx]
  | tell m c =>
    refine ⟨h.object, fun l hl => ?_⟩
    show (t.world.listeners.modify m _).get? l = (s.world.listeners.modify m _).get? l
    rw [Table.get?_modify, Table.get?_modify, h.listener l hl]
  | emit e => exact ⟨h.object, h.listener⟩

/-- The same deeds lead from what agrees to what agrees. -/
theorem after (h : s.Matches T F t) (deeds : List (Deed V)) :
    (s.after deeds).Matches T F (t.after deeds) := by
  induction deeds generalizing s t with
  | nil => exact h
  | cons d deeds ih => exact ih (h.undergo d)

end Matches

/-- Deeds within a tree change nothing outside it. -/
theorem matches_after {lists : Id → List Registration} {root : Id} (s : State V)
    {deeds : List (Deed V)} (hdeeds : ∀ d ∈ deeds, d.Within lists root) :
    s.Matches (fun x => ¬ Tree lists root x) (fun l => ¬ Hears lists root l) (s.after deeds) := by
  induction deeds generalizing s with
  | nil => exact .refl s
  | cons d deeds ih =>
    have hd := hdeeds d List.mem_cons_self
    refine Matches.trans ?_ (ih (s.undergo d) fun e he => hdeeds e (List.mem_cons_of_mem _ he))
    cases d with
    | store i v =>
      refine ⟨fun x hx => ?_, fun _ _ => rfl⟩
      show (s.world.alter i _).object? x = s.world.object? x
      rw [World.object?_alter, if_neg]
      rintro rfl
      exact hx hd
    | tell m c =>
      refine ⟨fun _ _ => rfl, fun l hl => ?_⟩
      show (s.world.listeners.modify m _).get? l = s.world.listeners.get? l
      rw [Table.get?_modify, if_neg]
      rintro rfl
      exact hl hd
    | emit e => exact ⟨fun _ _ => rfl, fun _ _ => rfl⟩

/-! ## Local functions -/

/-- Two states have the same bodies where `T` holds, and what is registered as a listener has the
same body; how often it was called, or what it was sent, may differ. -/
structure Agrees (T : Id → Prop) (s t : State V) : Prop where
  body : ∀ x, T x → t.world.body? x = s.world.body? x
  listener : ∀ l, (t.world.listeners.get? l).map Listener.body? =
    (s.world.listeners.get? l).map Listener.body?

theorem Agrees.refl (T : Id → Prop) (s : State V) : s.Agrees T s := ⟨fun _ _ => rfl, fun _ => rfl⟩

theorem Agrees.undergo {T : Id → Prop} {s t : State V} (h : s.Agrees T t) (d : Deed V) :
    (s.undergo d).Agrees T (t.undergo d) := by
  refine ⟨fun x hx => ?_, fun l => ?_⟩
  · cases d with
    | store i v =>
      by_cases hi : i = x
      · subst hi
        show (t.world.store i v).body? i = (s.world.store i v).body? i
        rw [World.body?_store_self, World.body?_store_self, h.body i hx]
      · show (t.world.store i v).body? x = (s.world.store i v).body? x
        rw [World.body?_store_of_ne _ hi, World.body?_store_of_ne _ hi, h.body x hx]
    | tell | emit => exact h.body x hx
  · rw [show (t.undergo d) = t.after [d] from rfl, show (s.undergo d) = s.after [d] from rfl,
      body?_after, body?_after]
    exact h.listener l

theorem Agrees.after {T : Id → Prop} {s t : State V} (h : s.Agrees T t) (deeds : List (Deed V)) :
    (s.after deeds).Agrees T (t.after deeds) := by
  induction deeds generalizing s t with
  | nil => exact h
  | cons d deeds ih => exact ih (h.undergo d)

/-- The function does the same deeds in all states that agree on the tree below `root`, within that
tree, and with the same outcome. -/
def Local (lists : Id → List Registration) (root : Id) {α : Type} (f : State V → State V × α) :
    Prop :=
  ∀ s : State V, s.world.Attentive → ∃ deeds r, (∀ d ∈ deeds, d.Within lists root) ∧
    ∀ t, s.Agrees (Tree lists root) t → f t = (t.after deeds, r)

namespace Local

variable {lists : Id → List Registration} {root : Id} {α β : Type}

theorem pure (r : α) : Local lists root fun s : State V => (s, r) :=
  fun _ _ => ⟨[], r, ⟨fun _ hd => (by cases hd), fun _ _ => rfl⟩⟩

/-- What depends on something that is read of the tree is local, if it is local for everything that
can be read. -/
theorem read {f : State V → State V × α} (look : State V → β)
    (hlook : ∀ s t : State V, s.Agrees (Tree lists root) t → look t = look s)
    (hf : ∀ b, ∃ g, Local lists root g ∧ ∀ s, s.world.Attentive → look s = b → f s = g s) :
    Local lists root f := by
  intro s hs
  obtain ⟨g, hg, heq⟩ := hf (look s)
  obtain ⟨deeds, r, hdeeds, hsame⟩ := hg s hs
  refine ⟨deeds, r, hdeeds, fun t ht => ?_⟩
  rw [heq t (hs.congr ht.listener) (hlook s t ht)]
  exact hsame t ht

/-- One local function after another is local. -/
theorem bind {f : State V → State V × β} {first : State V → State V × α}
    {next : α → State V → State V × β} (hf : ∀ s t a, first s = (t, a) → f s = next a t)
    (hfirst : Local lists root first) (hnext : ∀ a, Local lists root (next a)) :
    Local lists root f := by
  intro s hs
  obtain ⟨deeds, r, hdeeds, hsame⟩ := hfirst s hs
  obtain ⟨more, q, hmore, hthen⟩ := hnext r (s.after deeds) (hs.congr (s.body?_after deeds))
  refine ⟨deeds ++ more, q, fun d hd => ?_, fun t ht => ?_⟩
  · exact (List.mem_append.1 hd).elim (hdeeds d) (hmore d)
  · rw [hf t _ _ (hsame t ht), after_append]
    exact hthen _ (ht.after deeds)

/-- A deed, and what is local after it. -/
theorem after_deed {d : Deed V} (hd : d.Within lists root) {f : State V → State V × α}
    (hf : Local lists root f) : Local lists root fun s => f (s.undergo d) := by
  have hdeed : Local lists root fun s : State V => (s.undergo d, ()) := by
    refine fun _ _ => ⟨[d], (), fun e he => ?_, fun _ _ => rfl⟩
    rw [List.mem_singleton.1 he]
    exact hd
  exact bind (fun s t _ h => by cases h; rfl) hdeed fun _ => hf

theorem map {first : State V → State V × α} (hfirst : Local lists root first) (g : α → β) :
    Local lists root fun s => ((first s).1, g (first s).2) :=
  bind (fun s t a h => by simp only [h]) hfirst fun a => pure (g a)

/-- What goes on differently after a success and after a failure is local if both ways are. -/
theorem attempt {ε : Type} {f : State V → State V × β} {first : State V → State V × Except ε α}
    {good : α → State V → State V × β} {bad : ε → State V → State V × β}
    (hok : ∀ s t a, first s = (t, .ok a) → f s = good a t)
    (herror : ∀ s t e, first s = (t, .error e) → f s = bad e t)
    (hfirst : Local lists root first) (hgood : ∀ a, Local lists root (good a))
    (hbad : ∀ e, Local lists root (bad e)) : Local lists root f := by
  have hnext : ∀ r : Except ε α, Local lists root fun s => match r with
      | .ok a => good a s
      | .error e => bad e s := by
    intro r
    cases r with
    | ok a => exact hgood a
    | error e => exact hbad e
  refine bind (fun s t r h => ?_) hfirst hnext
  cases r with
  | ok a => exact hok s t a h
  | error e => exact herror s t e h

end Local

/-! ## The walk is local -/

variable {lists : Id → List Registration} {root : Id}

theorem local_settle {ρ : Role} (script : Script V ρ) :
    Local lists root fun s => s.settle script := by
  intro s _
  cases houtcome : script.outcome? with
  | none =>
    refine ⟨[], none, fun _ hd => (by cases hd), fun t _ => ?_⟩
    simp only [settle, houtcome]
    rfl
  | some x =>
    refine ⟨x.1.map .emit, some x.2, fun d hd => ?_, fun t _ => ?_⟩
    · obtain ⟨e, _, rfl⟩ := List.mem_map.1 hd
      trivial
    · simp only [settle, houtcome, after_events]

theorem local_report (p : Property V) (e : Error) : Local lists root fun s => s.report p e := by
  cases hreport : p.report with
  | none =>
    simp only [report, hreport]
    exact .pure _
  | some f =>
    simp only [report, hreport]
    exact (local_settle (f e)).map fun _ => Except.error e

omit lists root in
/-- A listener that is told hears of the change. -/
theorem undergo_tell {s : State V} {l : ListenerId} {c : Change V} {f : Listener V → Listener V}
    {x : Listener V} (hx : s.world.listeners.get? l = some x) (hf : f x = x.hear c) :
    { s with world := s.world.alterListener l f } = s.undergo (.tell l c) := by
  have hlisteners : s.world.listeners.modify l f = s.world.listeners.modify l (Listener.hear c) := by
    refine Table.ext_get? (by simp) fun m => ?_
    rw [Table.get?_modify, Table.get?_modify]
    split
    · next hm =>
      rw [← hm, hx, Option.map_some, Option.map_some, hf]
    · rfl
  simp only [undergo, World.alterListener, hlisteners]

/-- How the call of a listener ends, given what it answers, if it does. -/
def heard : Option (Answer V .listener) → Except Error Unit
  | some (.error c) => .error (c.during .listener)
  | _ => .ok ()

/-- A passive listener does not know how often it was called. -/
theorem local_tell {l : ListenerId} (hl : Hears lists root l) (i : Id) (old new : V) :
    Local lists root fun s => s.tell l i old new := by
  have htell : (Deed.tell l (⟨old, new⟩ : Change V)).Within lists root := hl
  refine .read (fun s => (s.world.listeners.get? l).map Listener.body?) (fun _ _ h => h.listener l)
    fun b => ?_
  rcases b with _ | _ | body
  · refine ⟨_, .pure (.ok ()), fun s _ hb => ?_⟩
    simp only [tell, Option.map_eq_none_iff.1 hb]
  · refine ⟨_, .after_deed htell (.pure (.ok ())), fun s _ hb => ?_⟩
    obtain ⟨x, hx, hbody⟩ := Option.map_eq_some_iff.1 hb
    cases x with
    | callback => cases hbody
    | channel sent taken =>
      simp only [tell, hx]
      exact congrArg (·, _) (undergo_tell hx rfl)
  · refine ⟨_, .after_deed htell ((local_settle (body ⟨0, i, new, old, new⟩)).map heard),
      fun s hs hb => ?_⟩
    obtain ⟨x, hx, hbody⟩ := Option.map_eq_some_iff.1 hb
    cases x with
    | channel => cases hbody
    | callback calls body' =>
      cases hbody
      have hforgets : body ⟨0, i, new, old, new⟩ = body ⟨calls, i, new, old, new⟩ :=
        (hs l _ hx).2 ⟨calls, i, new, old, new⟩ 0
      have hcounted : { s with world := s.world.alterListener l Listener.counted } =
        s.undergo (.tell l ⟨old, new⟩) := undergo_tell hx rfl
      simp only [tell, hx, hcounted, hforgets]
      cases (s.undergo (.tell l ⟨old, new⟩)).settle (body ⟨calls, i, new, old, new⟩) with
      | mk t a => rcases a with _ | _ | _ <;> rfl

/-- Calling one after the other until one fails is local if every call is. -/
theorem local_untilFailure {α : Type} {call : State V → α → State V × Except Error Unit}
    (hcall : ∀ a, Local lists root fun s => call s a) (as : List α) :
    Local lists root fun s => untilFailure call s as := by
  induction as with
  | nil => exact .pure _
  | cons a as ih =>
    exact .attempt (fun s t _ h => by simp only [untilFailure, h])
      (fun s t e h => by simp only [untilFailure, h]) (hcall a) (fun _ => ih)
      fun e => .pure (Except.error e)

theorem local_writeBy {spread : State V → V → V → State V × Except Error Unit} {i : Id}
    (hi : Tree lists root i) (hspread : ∀ old new, Local lists root fun s => spread s old new)
    (p : Property V) (w : V) : Local lists root fun s => s.writeBy spread p i w := by
  have hstored : Local lists root fun s : State V =>
      spread { s with world := s.world.store i w } p.value w :=
    .after_deed (d := .store i w) hi (hspread p.value w)
  exact .attempt (fun s t _ h => by simp only [writeBy, h])
    (fun s t e h => by simp only [writeBy, h]) hstored
    (fun _ => .pure (Except.ok p.value)) fun e => local_report p e

variable [BEq V]

/-- Goes on with an update once the validator has answered. -/
def answerBy (spread : State V → V → V → State V × Except Error Unit) (p : Property V) (i : Id)
    (v : V) : Option (Answer V .validator) → State V → State V × Except Error V
  | none, s => (s, .ok v)
  | some (.error c), s => s.report p (c.during .validation)
  | some (.ok w), s => if p.value == w then (s, .ok p.value) else s.writeBy spread p i w

theorem updateBy_eq {spread : State V → V → V → State V × Except Error Unit} {s : State V} {i : Id}
    {p : Property V} (hp : s.world.property? i = some p) (v : V) :
    s.updateBy spread i v =
      answerBy spread p i v (s.settle (p.validate v)).2 (s.settle (p.validate v)).1 := by
  cases hsettle : s.settle (p.validate v) with
  | mk t a =>
    rcases a with _ | c | w
    · simp only [updateBy, hp, hsettle]
      rfl
    · simp only [updateBy, hp, hsettle]
      rfl
    · exact updateBy_of_settle hp hsettle

theorem local_updateBy {spread : State V → V → V → State V × Except Error Unit} {i : Id}
    (hi : Tree lists root i) (hspread : ∀ old new, Local lists root fun s => spread s old new)
    (v : V) : Local lists root fun s => s.updateBy spread i v := by
  refine .read (fun s => s.world.property? i) (fun s t h => ?_) fun o => ?_
  · rw [World.property?_eq_body?, World.property?_eq_body?, h.body i hi]
  · cases o with
    | none =>
      refine ⟨_, .pure (Except.ok v), fun s _ hp => ?_⟩
      simp only [updateBy, hp]
    | some p =>
      have hanswer : ∀ r, Local lists root (answerBy spread p i v r) := by
        intro r
        rcases r with _ | c | w
        · exact .pure (Except.ok v)
        · exact local_report p _
        · by_cases heq : (p.value == w) = true
          · have hsame : answerBy spread p i v (some (.ok w)) = fun s => (s, .ok p.value) :=
              funext fun _ => if_pos heq
            rw [hsame]
            exact .pure (Except.ok p.value)
          · have hwritten : answerBy spread p i v (some (.ok w)) = fun s => s.writeBy spread p i w :=
              funext fun _ => if_neg heq
            rw [hwritten]
            exact local_writeBy hi hspread p w
      exact ⟨fun s => answerBy spread p i v (s.settle (p.validate v)).2 (s.settle (p.validate v)).1,
        .bind (fun s t r h => by rw [h]) (local_settle (p.validate v)) hanswer,
        fun s _ hp => updateBy_eq hp v⟩

/-- Goes on with a binding once the converter has answered. -/
def recomputeBy (spread : State V → V → V → State V × Except Error Unit) (b : Binding V) (j : Id) :
    Option (Answer V .converter) → State V → State V × Except Error Unit
  | none, s => (s, .ok ())
  | some v, s => spread { s with world := s.world.store j v } b.value v

/-- What a walk does for one registration of an object of the tree. -/
theorem local_pass {i : Id} (h : Acc (Feeds lists) i) (hi : Tree lists root i)
    (hbelow : ∀ j (hj : Feeds lists j i) (old new : V),
      Local lists root fun s => spread lists j (h.inv hj) s old new)
    (old new : V) (r : { r : Registration // r ∈ lists i }) :
    Local lists root fun s => pass lists i h old new s r := by
  obtain ⟨r, hr⟩ := r
  cases r with
  | listener l => exact local_tell ⟨i, hi, hr⟩ i old new
  | bound j =>
    have hj : Feeds lists j i := ⟨_, hr, rfl⟩
    exact .attempt (fun s t _ h => by simp only [pass, h]) (fun s t e h => by simp only [pass, h])
      (local_updateBy (hi.step hj) (hbelow j hj) new) (fun _ => .pure (Except.ok ()))
      fun e => .pure (Except.error e)
  | derived j =>
    have hj : Feeds lists j i := ⟨_, hr, rfl⟩
    refine .read (fun s => s.world.binding? j) (fun s t h => ?_) fun o => ?_
    · rw [World.binding?_eq_body?, World.binding?_eq_body?, h.body j (hi.step hj)]
    · cases o with
      | none =>
        refine ⟨_, .pure (Except.ok ()), fun s _ hb => ?_⟩
        simp only [pass, hb]
      | some b =>
        have hconverted : ∀ r, Local lists root (recomputeBy (spread lists j (h.inv hj)) b j r) := by
          intro r
          cases r with
          | none => exact .pure (Except.ok ())
          | some v => exact .after_deed (d := .store j v) (hi.step hj) (hbelow j hj b.value v)
        refine ⟨fun s => recomputeBy (spread lists j (h.inv hj)) b j (s.settle (b.convert new)).2
          (s.settle (b.convert new)).1,
          .bind (fun s t r h => by rw [h]) (local_settle (b.convert new)) hconverted,
          fun s _ hb => ?_⟩
        simp only [pass, hb]
        cases s.settle (b.convert new) with
        | mk t r => cases r <;> rfl

/-- Passing on a change of an object of the tree is local to the tree. -/
theorem local_spread {i : Id} (h : Acc (Feeds lists) i) (hi : Tree lists root i) (old new : V) :
    Local lists root fun s => spread lists i h s old new := by
  -- The induction follows the recursion of the walk.
  induction h generalizing old new with
  | intro i hbelow ih =>
    have hcalls := local_untilFailure
      (local_pass (Acc.intro i hbelow) hi (fun j hj => ih j hj (hi.step hj)) old new) (lists i).attach
    have hround := hcalls.after_deed (d := .emit (.trace (.notifying i (lists i).length))) trivial
    simp only [spread_eq]
    exact hround

end State

end Observable
