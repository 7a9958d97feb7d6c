import Mathlib.Logic.Relation
import Observable.Proofs.Forest
import Observable.Proofs.Quiet

/-!
# Setting a property is a walk

In a quiet run, performing `set` on a free property does what `State.walk` does: it ends, and it
leaves the same state and gives the same result (`Config.Run.set_eq_walk`). The state includes every
value, everything sent through channels and the events in their order, and a failure leaves the
values written before it.

The walk is a function on states, so the first half says what it leaves alone, without any step
(`World.Rewritten`). The second half follows the steps under any frames that wait, one lemma for
each function of the walk. A listener is told the present value of the observable, which is the
value of the change because a change does not come back to the object at which it began.
-/

namespace Observable

variable {V : Type}

/-! ## What a walk leaves alone -/

/-- A change of `i` may be passed on to `x`, directly or not. -/
def Downstream (lists : Id → List Registration) (i x : Id) : Prop :=
  Relation.TransGen (Feeds lists) x i

/-- Where changes are passed on along finite paths only, no change comes back. -/
theorem not_downstream_self {lists : Id → List Registration} {i : Id} (h : Acc (Feeds lists) i) :
    ¬ Downstream lists i i := by
  have hacc : Acc (Relation.TransGen (Feeds lists)) i := h.transGen
  induction hacc with
  | intro i _ ih =>
    intro hself
    exact ih i hself h hself

theorem Body.store_store (b : Body V) (u v : V) : (b.store u).store v = b.store v := by
  cases b <;> rfl

namespace World

/-- A world differs from another one in the values of some objects and in its listeners only. -/
structure Rewritten (changed : Id → Prop) (w w' : World V) : Prop where
  registrations : ∀ i, w'.registrations i = w.registrations i
  names : w'.names = w.names
  shape : ∀ i, w'.shape? i = w.shape? i
  body : ∀ i v, (w'.body? i).map (Body.store v) = (w.body? i).map (Body.store v)
  value : ∀ i, ¬ changed i → w'.value? i = w.value? i
  quiet : w.IsQuiet → w'.IsQuiet

namespace Rewritten

variable {changed : Id → Prop} {w w' w'' : World V}

theorem refl (changed : Id → Prop) (w : World V) : w.Rewritten changed w where
  registrations := fun _ => rfl
  names := rfl
  shape := fun _ => rfl
  body := fun _ _ => rfl
  value := fun _ _ => rfl
  quiet := id

theorem trans (hfirst : w.Rewritten changed w') (hsecond : w'.Rewritten changed w'') :
    w.Rewritten changed w'' where
  registrations := fun i => (hsecond.registrations i).trans (hfirst.registrations i)
  names := hsecond.names.trans hfirst.names
  shape := fun i => (hsecond.shape i).trans (hfirst.shape i)
  body := fun i v => (hsecond.body i v).trans (hfirst.body i v)
  value := fun i hi => (hsecond.value i hi).trans (hfirst.value i hi)
  quiet := hsecond.quiet ∘ hfirst.quiet

theorem mono {changed' : Id → Prop} (hw : w.Rewritten changed w')
    (hsub : ∀ i, changed i → changed' i) : w.Rewritten changed' w' where
  registrations := hw.registrations
  names := hw.names
  shape := hw.shape
  body := hw.body
  value := fun i hi => hw.value i fun h => hi (hsub i h)
  quiet := hw.quiet

theorem store (w : World V) {i : Id} (hi : changed i) (v : V) :
    w.Rewritten changed (w.store i v) where
  registrations := fun j => registrations_store ..
  names := rfl
  shape := fun j => shape?_store ..
  body := by
    intro j u
    unfold body? World.store
    rw [object?_alter]
    split
    · rw [Option.map_map, Option.map_map, Option.map_map]
      cases w.object? j with
      | none => rfl
      | some o => exact congrArg some (Body.store_store ..)
    · rfl
  value := by
    intro j hj
    rw [value?_store, if_neg]
    rintro rfl
    exact hj hi
  quiet := fun hw =>
    isQuiet_iff.2 ((isQuiet_iff.1 hw).alter i fun _ _ hx => hx.of_store)

theorem alterListener (w : World V) (l : ListenerId) {f : Listener V → Listener V}
    (hf : ∀ y x, (f y).Gives x → y.Gives x) : w.Rewritten changed (w.alterListener l f) where
  registrations := fun _ => rfl
  names := rfl
  shape := fun _ => rfl
  body := fun _ _ => rfl
  value := fun _ _ => rfl
  quiet := fun hw => isQuiet_iff.2 ((isQuiet_iff.1 hw).alterListener l hf)

/-- A property stays the same but for its value. -/
theorem property? (hw : w.Rewritten changed w') {i : Id} {p : Property V}
    (hp : w.property? i = some p) : ∃ u, w'.property? i = some { p with value := u } := by
  rw [property?_eq_body?] at hp
  obtain ⟨b, hb, hbody⟩ := Option.bind_eq_some_iff.1 hp
  have hsame := hw.body i p.value
  rw [hb] at hsame
  obtain ⟨b', hb', hstore⟩ := Option.map_eq_some_iff.1 hsame
  rw [World.property?_eq_body?, hb']
  cases b with
  | property q =>
    cases hbody
    cases b' with
    | property q' =>
      cases q' with
      | mk u validate report source =>
        cases hstore
        exact ⟨u, rfl⟩
    | _ => cases hstore
  | _ => cases hbody

end Rewritten

end World

namespace State

open World (Rewritten)

variable {changed : Id → Prop}

theorem world_settle {ρ : Role} (s : State V) (script : Script V ρ) :
    (s.settle script).1.world = s.world := by
  unfold settle
  split <;> rfl

theorem world_report (s : State V) (p : Property V) (e : Error) :
    (s.report p e).1.world = s.world := by
  unfold report
  split
  · rfl
  · exact world_settle ..

theorem snd_report (s : State V) (p : Property V) (e : Error) : (s.report p e).2 = .error e := by
  unfold report
  split <;> rfl

theorem rewritten_tell (s : State V) (l : ListenerId) (i : Id) (old new : V) :
    s.world.Rewritten changed (s.tell l i old new).1.world := by
  unfold tell
  split
  · exact .refl ..
  · exact .alterListener _ _ fun _ _ hx => hx.of_send
  · next calls body hl =>
    have hcounted : s.world.Rewritten changed (s.world.alterListener l Listener.counted) :=
      .alterListener _ _ fun _ _ hx => hx.of_counted
    have hworld := world_settle { s with world := s.world.alterListener l Listener.counted }
      (body ⟨calls, i, new, old, new⟩)
    simp only
    split
    · next s' c hsettle =>
      rw [hsettle] at hworld
      rw [hworld]
      exact hcounted
    · next s' r _ hsettle =>
      rw [hsettle] at hworld
      rw [hworld]
      exact hcounted

theorem rewritten_untilFailure {α : Type} {call : State V → α → State V × Except Error Unit}
    (hcall : ∀ (s : State V) a, s.world.Rewritten changed (call s a).1.world) (s : State V)
    (as : List α) : s.world.Rewritten changed (untilFailure call s as).1.world := by
  induction as generalizing s with
  | nil => exact .refl ..
  | cons a as ih =>
    have hfirst := hcall s a
    unfold untilFailure
    split
    · next s' u heq =>
      rw [heq] at hfirst
      exact hfirst.trans (ih s')
    · next s' e heq =>
      rw [heq] at hfirst
      exact hfirst

/-- Stores a value in a property and passes the change on. -/
def writeBy (spread : State V → V → V → State V × Except Error Unit) (s : State V)
    (p : Property V) (i : Id) (w : V) : State V × Except Error V :=
  match spread { s with world := s.world.store i w } p.value w with
  | (s, .ok _) => (s, .ok p.value)
  | (s, .error e) => s.report p e

theorem rewritten_writeBy {spread : State V → V → V → State V × Except Error Unit} {i : Id}
    (hi : changed i)
    (hspread : ∀ (s : State V) old new, s.world.Rewritten changed (spread s old new).1.world)
    (s : State V) (p : Property V) (w : V) :
    s.world.Rewritten changed (s.writeBy spread p i w).1.world := by
  have hstore : s.world.Rewritten changed (s.world.store i w) := .store _ hi w
  have hall := hstore.trans (hspread { s with world := s.world.store i w } p.value w)
  unfold writeBy
  split
  · next t u hdone =>
    rw [hdone] at hall
    exact hall
  · next t e hfailed =>
    rw [hfailed] at hall
    rw [world_report]
    exact hall

variable [BEq V]

/-- A validated value is written if it differs from the stored one. -/
theorem updateBy_of_settle {spread : State V → V → V → State V × Except Error Unit}
    {s t : State V} {i : Id} {p : Property V} {v w : V} (hp : s.world.property? i = some p)
    (hsettle : s.settle (p.validate v) = (t, some (.ok w))) :
    s.updateBy spread i v =
      if p.value == w then (t, .ok p.value) else t.writeBy spread p i w := by
  unfold updateBy
  rw [hp]
  simp only [hsettle]
  rfl

theorem rewritten_updateBy {spread : State V → V → V → State V × Except Error Unit} {i : Id}
    (hi : changed i)
    (hspread : ∀ (s : State V) old new, s.world.Rewritten changed (spread s old new).1.world)
    (s : State V) (v : V) : s.world.Rewritten changed (s.updateBy spread i v).1.world := by
  cases hp : s.world.property? i with
  | none =>
    simp only [updateBy, hp]
    exact .refl ..
  | some p =>
    have hworld := s.world_settle (p.validate v)
    cases hsettle : s.settle (p.validate v) with
    | mk t a =>
      rw [hsettle] at hworld
      have hsame : s.world.Rewritten changed t.world := by
        rw [hworld]
        exact .refl ..
      match a, hsettle with
      | none, hsettle =>
        simp only [updateBy, hp, hsettle]
        exact hsame
      | some (.error c), hsettle =>
        simp only [updateBy, hp, hsettle]
        rw [world_report]
        exact hsame
      | some (.ok w), hsettle =>
        rw [updateBy_of_settle hp hsettle]
        split
        · exact hsame
        · exact hsame.trans (rewritten_writeBy hi hspread t p w)

/-- What a walk does for one registration of an object. -/
def pass (lists : Id → List Registration) (i : Id) (h : Acc (Feeds lists) i) (old new : V)
    (s : State V) (r : { r : Registration // r ∈ lists i }) : State V × Except Error Unit :=
  match r with
  | ⟨.listener l, _⟩ => s.tell l i old new
  | ⟨.bound j, hr⟩ =>
    match s.updateBy (spread lists j (h.inv ⟨_, hr, rfl⟩)) j new with
    | (s, .ok _) => (s, .ok ())
    | (s, .error e) => (s, .error e)
  | ⟨.derived j, hr⟩ =>
    match s.world.binding? j with
    | none => (s, .ok ())
    | some b =>
      match s.settle (b.convert new) with
      | (s, none) => (s, .ok ())
      | (s, some v) =>
        spread lists j (h.inv ⟨_, hr, rfl⟩) { s with world := s.world.store j v } b.value v

theorem spread_eq (lists : Id → List Registration) (i : Id) (h : Acc (Feeds lists) i)
    (s : State V) (old new : V) :
    spread lists i h s old new =
      untilFailure (pass lists i h old new)
        (s.emit (.trace (.notifying i (lists i).length))) (lists i).attach := by
  rw [spread]
  rfl

theorem rewritten_pass {lists : Id → List Registration} {i : Id} (h : Acc (Feeds lists) i)
    (hbelow : ∀ j (hj : Feeds lists j i) (s : State V) old new,
      s.world.Rewritten (Downstream lists j) (spread lists j (h.inv hj) s old new).1.world)
    (old new : V) (s : State V) (r : { r : Registration // r ∈ lists i }) :
    s.world.Rewritten (Downstream lists i) (pass lists i h old new s r).1.world := by
  obtain ⟨r, hr⟩ := r
  cases r with
  | listener l => exact rewritten_tell ..
  | bound j =>
    have hj : Feeds lists j i := ⟨_, hr, rfl⟩
    have hchanged : Downstream lists i j := .single hj
    -- What is downstream of `j` is downstream of `i` too.
    have hspread : ∀ (s : State V) old new, s.world.Rewritten (Downstream lists i)
        (spread lists j (h.inv hj) s old new).1.world := by
      intro s old new
      exact (hbelow j hj s old new).mono fun x hx => .tail hx hj
    have hupdate := rewritten_updateBy hchanged hspread s new
    unfold pass
    simp only
    split
    · next heq =>
      rw [heq] at hupdate
      exact hupdate
    · next heq =>
      rw [heq] at hupdate
      exact hupdate
  | derived j =>
    have hj : Feeds lists j i := ⟨_, hr, rfl⟩
    have hchanged : Downstream lists i j := .single hj
    unfold pass
    simp only
    split
    · exact .refl ..
    · next b hb =>
      have hworld := s.world_settle (b.convert new)
      split
      · next s' heq =>
        rw [heq] at hworld
        rw [hworld]
        exact .refl ..
      · next s' v heq =>
        rw [heq] at hworld
        have hstore : s.world.Rewritten (Downstream lists i) (s'.world.store j v) := by
          rw [hworld]
          exact .store _ hchanged v
        have hspread := hbelow j hj { s' with world := s'.world.store j v } b.value v
        exact hstore.trans (hspread.mono fun x hx => .tail hx hj)

/-- Passing on a change of an object rewrites what is downstream of it. -/
theorem rewritten_spread {lists : Id → List Registration} {i : Id} (h : Acc (Feeds lists) i)
    (s : State V) (old new : V) :
    s.world.Rewritten (Downstream lists i) (spread lists i h s old new).1.world := by
  -- The induction follows the recursion of the walk.
  induction h generalizing s old new with
  | intro i hbelow ih =>
    rw [spread_eq]
    exact rewritten_untilFailure (rewritten_pass (Acc.intro i hbelow) ih old new) (s.emit _) _

/-! ## The steps of a walk -/

omit [BEq V] in
/-- What the steps of a walk rely on: the lists are those before it, callbacks perform no operation,
and ends of holds change nothing. -/
structure Steady (lists : Id → List Registration) (s : State V) : Prop where
  registrations : ∀ i, s.world.registrations i = lists i
  quiet : s.world.IsQuiet
  named : ∀ i, s.world.alive i = true → s.world.names.holds i = true

omit [BEq V] in
theorem Steady.rewritten {lists : Id → List Registration} {s t : State V} (hs : s.Steady lists)
    (hworld : s.world.Rewritten changed t.world) : t.Steady lists where
  registrations := fun i => (hworld.registrations i).trans (hs.registrations i)
  quiet := hworld.quiet hs.quiet
  named := by
    intro i halive
    rw [World.alive_congr (hworld.shape i)] at halive
    rw [hworld.names]
    exact hs.named i halive

omit [BEq V] in
theorem Steady.of_world {lists : Id → List Registration} {s t : State V} (hs : s.Steady lists)
    (hworld : t.world = s.world) : t.Steady lists := by
  have hsame : s.world.Rewritten (fun _ => True) t.world := by
    rw [hworld]
    exact .refl ..
  exact hs.rewritten hsame

omit [BEq V] in
theorem Steady.store {lists : Id → List Registration} {s : State V} (hs : s.Steady lists) (i : Id)
    (v : V) : ({ s with world := s.world.store i v } : State V).Steady lists := by
  have hstore : s.world.Rewritten (fun _ => True) (s.world.store i v) := .store _ trivial v
  exact hs.rewritten hstore

theorem leads_settle {ρ : Role} {script : Script V ρ} (hscript : script.IsPassive) (s : State V)
    (k : Stack V (.answer ρ)) :
    ∃ t a, s.settle script = (t, some a) ∧ t.world = s.world ∧
      Config.Leads ⟨s, .run script k⟩ ⟨t, .run (.stop a) k⟩ := by
  obtain ⟨⟨events, a⟩, houtcome⟩ := Option.isSome_iff_exists.1 hscript
  refine ⟨{ s with log := s.log ++ events }, a, ?_, rfl, Script.leads_of_outcome? houtcome s k⟩
  simp [settle, houtcome]

theorem leads_fail {s : State V} {p q : Property V} {k : Stack V .update}
    (hq : s.world.property? k.updated = some q) (hreport : q.report = p.report)
    (hpassive : q.IsPassive) (e : Error) :
    Config.Leads (s.fail e k) ⟨(s.report p e).1, .updated (.error e) k⟩ := by
  unfold fail report
  rw [hq, Option.bind_some, hreport]
  cases hp : p.report with
  | none => exact .refl _
  | some report =>
    have hscript : (report e).IsPassive := hpassive.report report (by rw [hreport, hp]; rfl) e
    obtain ⟨t, a, hsettle, _, hleads⟩ := leads_settle hscript s (.reporting k.updated e k)
    simp only [hsettle]
    exact hleads.trans (.of_step rfl)

variable (V) in
/-- The walk from an object is what a round over its list does, whatever waits for the round. -/
def Follows (lists : Id → List Registration) (i : Id) (h : Acc (Feeds lists) i) : Prop :=
  ∀ s : State V, s.Steady lists → ∀ old new, s.world.value? i = some new → ∀ k,
    Config.Leads
      ⟨s.emit (.trace (.notifying i (lists i).length)), .round (lists i) i old new k⟩
      ⟨(spread lists i h s old new).1, .rounded (spread lists i h s old new).2 k⟩

/-- A stored value is passed on in a round, whose failure is reported. -/
theorem Follows.writeBy {lists : Id → List Registration} {k : Stack V .update}
    {h : Acc (Feeds lists) k.updated} (hfollows : Follows V lists k.updated h) {s : State V}
    (hs : s.Steady lists) {p : Property V} (hp : s.world.property? k.updated = some p) {w : V}
    (hne : (p.value == w) = false) :
    Config.Leads (s.commit w k)
      ⟨(s.writeBy (spread lists k.updated h) p k.updated w).1,
        .updated (s.writeBy (spread lists k.updated h) p k.updated w).2 k⟩ := by
  have hold := World.value?_of_property? hp
  have hsteady := hs.store k.updated w
  have hround := hfollows { s with world := s.world.store k.updated w } hsteady p.value w
    (World.value?_store_self hold w) (.updating k.updated p.value k)
  have hafter := rewritten_spread h { s with world := s.world.store k.updated w } p.value w
  unfold commit
  rw [hold]
  simp only [hne, Bool.false_eq_true, if_false]
  rw [announce_store s k.updated p.value w (.updating k.updated p.value k) rfl,
    hs.registrations]
  refine hround.trans ?_
  unfold State.writeBy
  cases hresult : spread lists k.updated h { s with world := s.world.store k.updated w } p.value w
    with
  | mk t r =>
    rw [hresult] at hafter
    cases r with
    | ok _ => exact .of_step rfl
    | error e =>
      have hfail : Config.Leads ⟨t, .rounded (.error e) (.updating k.updated p.value k)⟩
          (t.fail e k) := .of_step rfl
      simp only [snd_report]
      refine hfail.trans ?_
      -- The walk rewrote values only, so the reporter is the one from before it.
      have hstore : s.world.Rewritten (fun _ => True) (s.world.store k.updated w) :=
        .store _ trivial w
      obtain ⟨q, hq⟩ := (hstore.trans (hafter.mono fun _ _ => trivial)).property? hp
      refine leads_fail hq rfl ?_ e
      exact (hsteady.rewritten hafter).quiet.property hq

theorem Follows.updateBy {lists : Id → List Registration} {k : Stack V .update}
    {h : Acc (Feeds lists) k.updated} (hfollows : Follows V lists k.updated h) {s : State V}
    (hs : s.Steady lists) {p : Property V} (hp : s.world.property? k.updated = some p) (v : V) :
    Config.Leads ⟨s, .run (p.validate v) (.validating k.updated k)⟩
      ⟨(s.updateBy (spread lists k.updated h) k.updated v).1,
        .updated (s.updateBy (spread lists k.updated h) k.updated v).2 k⟩ := by
  have hpassive := hs.quiet.property hp
  obtain ⟨t, a, hsettle, hworld, hleads⟩ :=
    leads_settle (hpassive.validate v) s (.validating k.updated k)
  refine hleads.trans ?_
  have hp' : t.world.property? k.updated = some p := by
    rw [hworld]
    exact hp
  cases a with
  | error c =>
    have hfail : Config.Leads
        ⟨t, .run (@Script.stop V .validator (.error c)) (.validating k.updated k)⟩
        (t.fail (c.during .validation) k) := .of_step rfl
    simp only [State.updateBy, hp, hsettle, snd_report]
    exact hfail.trans (leads_fail hp' rfl hpassive _)
  | ok w =>
    have hcommit : Config.Leads
        ⟨t, .run (@Script.stop V .validator (.ok w)) (.validating k.updated k)⟩ (t.commit w k) :=
      .of_step rfl
    refine hcommit.trans ?_
    rw [updateBy_of_settle hp hsettle]
    cases heq : p.value == w with
    | true =>
      simp only [commit, World.value?_of_property? hp', heq, if_true]
      exact .refl _
    | false => exact hfollows.writeBy (hs.of_world hworld) hp' heq

theorem leads_tell {s : State V} (hquiet : s.world.IsQuiet) {l : ListenerId} {i : Id}
    {old new : V} {rest : List Registration} {k : Stack V .round}
    (hvalue : s.world.value? i = some new) :
    Config.Leads ⟨s, .round (.listener l :: rest) i old new k⟩
      ⟨(s.tell l i old new).1, .called (s.tell l i old new).2 (.round rest i old new k)⟩ := by
  have hcall : Config.Leads ⟨s, .round (.listener l :: rest) i old new k⟩
      (s.call (.listener l) i old new (.round rest i old new k)) := .of_step rfl
  refine hcall.trans ?_
  cases hl : s.world.listeners.get? l with
  | none =>
    simp only [call, tell, hl]
    exact .refl _
  | some x =>
    cases x with
    | channel sent taken =>
      simp only [call, tell, hl]
      exact .refl _
    | callback calls body =>
      obtain ⟨t, a, hsettle, _, hleads⟩ := leads_settle
        (hquiet.listener l _ hl ⟨calls, i, new, old, new⟩)
        { s with world := s.world.alterListener l Listener.counted }
        (.listening (.round rest i old new k))
      simp only [call, tell, hl, hvalue, Option.getD_some, hsettle]
      refine hleads.trans ?_
      cases a with
      | ok _ => exact .of_step rfl
      | error c => exact .of_step rfl

/-- The update of a property is the walk from it, which leaves a steady state. -/
theorem Follows.update {lists : Id → List Registration} {j : Id} {h : Acc (Feeds lists) j}
    (hfollows : Follows V lists j h) {s : State V} (hs : s.Steady lists) {p : Property V}
    (hp : s.world.property? j = some p) (v : V) {k : Stack V .update} (hk : k.updated = j) :
    ∃ t r, s.updateBy (spread lists j h) j v = (t, r) ∧ t.Steady lists ∧
      Config.Leads ⟨s, .run (p.validate v) (.validating j k)⟩ ⟨t, .updated r k⟩ := by
  subst hk
  refine ⟨_, _, rfl, ?_, ?_⟩
  · have hafter := @rewritten_updateBy V (fun _ => True) _ _ k.updated trivial
      (fun s old new => (rewritten_spread h s old new).mono fun _ _ => trivial) s v
    exact hs.rewritten hafter
  · exact hfollows.updateBy hs hp v

/-- A binding stores a converted value whatever it had, and announces it. -/
theorem Follows.recompute {lists : Id → List Registration} {j : Id} {h : Acc (Feeds lists) j}
    (hfollows : Follows V lists j h) {s : State V} (hs : s.Steady lists) {b : Binding V}
    (hb : s.world.binding? j = some b) (v : V) (k : Stack V .call) :
    Config.Leads (s.recompute j v k)
      ⟨(spread lists j h { s with world := s.world.store j v } b.value v).1,
        .called (spread lists j h { s with world := s.world.store j v } b.value v).2 k⟩ := by
  have hold := World.value?_of_binding? hb
  unfold State.recompute
  rw [hold]
  simp only
  rw [announce_store s j b.value v (.recomputing j k) rfl, hs.registrations j]
  have hsteady := hs.store j v
  have hround := hfollows { s with world := s.world.store j v } hsteady b.value v
    (World.value?_store_self hold v) (.recomputing j k)
  refine hround.trans ?_
  have hafter := rewritten_spread h { s with world := s.world.store j v } b.value v
  cases hresult : spread lists j h { s with world := s.world.store j v } b.value v with
  | mk t r =>
    rw [hresult] at hafter
    have hended : Config.Leads ⟨t, .rounded r (.recomputing j k)⟩
        (t.afterRound r (.recomputing j k)) := .of_step rfl
    refine hended.trans ?_
    have hlast : t.Steady lists := hsteady.rewritten hafter
    simp only [afterRound, Config.release_of_named hlast.named]
    exact .refl _

theorem leads_pass {lists : Id → List Registration} {i : Id} (h : Acc (Feeds lists) i)
    (hbelow : ∀ j (hj : Feeds lists j i), Follows V lists j (h.inv hj)) {s : State V}
    (hs : s.Steady lists) (old : V) {new : V} (hvalue : s.world.value? i = some new)
    (r : { r : Registration // r ∈ lists i }) (rest : List Registration) (k : Stack V .round) :
    Config.Leads ⟨s, .round (r.1 :: rest) i old new k⟩
      ⟨(pass lists i h old new s r).1,
        .called (pass lists i h old new s r).2 (.round rest i old new k)⟩ := by
  obtain ⟨r, hr⟩ := r
  have hcall : Config.Leads ⟨s, .round (r :: rest) i old new k⟩
      (s.call r i old new (.round rest i old new k)) := .of_step rfl
  cases r with
  | listener l => exact leads_tell hs.quiet hvalue
  | bound j =>
    have hj : Feeds lists j i := ⟨_, hr, rfl⟩
    refine hcall.trans ?_
    cases hp : s.world.property? j with
    | none =>
      simp only [call, pass, updateBy, hp]
      exact .refl _
    | some p =>
      obtain ⟨t, r, hresult, hsteady, hupdate⟩ := (hbelow j hj).update hs hp new
        (k := .following j (.round rest i old new k)) rfl
      have hended : Config.Leads ⟨t, .updated r (.following j (.round rest i old new k))⟩
          (t.afterUpdate r (.following j (.round rest i old new k))) := .of_step rfl
      simp only [call, pass, hp, hresult]
      refine hupdate.trans (hended.trans ?_)
      simp only [afterUpdate, Config.release_of_named hsteady.named]
      cases r with
      | ok _ => exact .refl _
      | error e => exact .refl _
  | derived j =>
    have hj : Feeds lists j i := ⟨_, hr, rfl⟩
    refine hcall.trans ?_
    cases hb : s.world.binding? j with
    | none =>
      simp only [call, pass, hb]
      exact .refl _
    | some b =>
      obtain ⟨t, v, hsettle, hworld, hleads⟩ :=
        leads_settle (hs.quiet.binding hb new) s (.converting j (.round rest i old new k))
      simp only [call, pass, hb, hsettle]
      refine hleads.trans ?_
      have hrecompute : Config.Leads
          ⟨t, .run (@Script.stop V .converter v) (.converting j (.round rest i old new k))⟩
          (t.recompute j v (.round rest i old new k)) := .of_step rfl
      rw [← hworld] at hb
      exact hrecompute.trans ((hbelow j hj).recompute (hs.of_world hworld) hb v _)

theorem leads_untilFailure {lists : Id → List Registration} {i : Id} (h : Acc (Feeds lists) i)
    (hbelow : ∀ j (hj : Feeds lists j i), Follows V lists j (h.inv hj)) {s : State V}
    (hs : s.Steady lists) (old : V) {new : V} (hvalue : s.world.value? i = some new)
    (rs : List { r : Registration // r ∈ lists i }) (k : Stack V .round) :
    Config.Leads ⟨s, .round (rs.map (·.1)) i old new k⟩
      ⟨(untilFailure (pass lists i h old new) s rs).1,
        .rounded (untilFailure (pass lists i h old new) s rs).2 k⟩ := by
  induction rs generalizing s with
  | nil => exact .of_step rfl
  | cons r rs ih =>
    have hpass := leads_pass h hbelow hs old hvalue r (rs.map (·.1)) k
    have hafter := rewritten_pass h (fun j hj => rewritten_spread (h.inv hj)) old new s r
    rw [List.map_cons]
    refine hpass.trans ?_
    unfold untilFailure
    cases hresult : pass lists i h old new s r with
    | mk t q =>
      rw [hresult] at hafter
      -- The next listener is told the same value, since the change did not come back to `i`.
      have hsame : t.world.value? i = some new := by
        rw [hafter.value i (not_downstream_self h)]
        exact hvalue
      cases q with
      | ok u =>
        have hnext : Config.Leads ⟨t, .called (.ok u) (.round (rs.map (·.1)) i old new k)⟩
            ⟨t, .round (rs.map (·.1)) i old new k⟩ := .of_step rfl
        exact hnext.trans (ih (hs.rewritten hafter) hsame)
      | error e => exact .of_step rfl

theorem follows {lists : Id → List Registration} {i : Id} (h : Acc (Feeds lists) i) :
    Follows V lists i h := by
  induction h with
  | intro i hbelow ih =>
    intro s hs old new hvalue k
    have hround := leads_untilFailure (Acc.intro i hbelow) ih
      (s := s.emit (.trace (.notifying i (lists i).length)))
      ⟨hs.registrations, hs.quiet, hs.named⟩ old hvalue (lists i).attach k
    rw [List.attach_map_subtype_val] at hround
    rw [spread_eq]
    exact hround

end State

namespace Config

variable [BEq V]

/-- In any state that a quiet run comes to, setting a free property does what the walk from it does:
the operation ends in the state and with the result of the walk. -/
theorem Run.set_eq_walk {past : List (Config V)} {c : Config V} (hrun : Run Op.IsQuiet past c)
    {name : String} {i : Id} (hname : c.state.world.find? name Handle.property? = some i)
    (hfree : c.state.world.isBound i = false) :
    ∃ h : Acc (Feeds c.state.world.registrations) i, ∀ v, ∃ n,
      c.state.perform? n (.set name v) =
        some ((c.state.walk i h v).1, .ofUpdate (c.state.walk i h v).2) := by
  have hsound := hrun.sound
  obtain ⟨p, hp⟩ := World.shape?_eq_property_iff.1 (hsound.world.shape?_of_property hname)
  have hsource : p.source = none := by
    simpa [World.isBound, hp] using hfree
  have halive : c.state.world.alive i = true :=
    World.alive_of_shape? (hsound.world.shape?_of_property hname)
  have hroot : c.state.world.relation? i = none := by
    rw [World.relation?_of_property? hp, hsource]
    rfl
  -- The property has no source, so every path below it ends and the walk is defined.
  have h := hsound.world.linked.acc_of_free halive hroot
  refine ⟨h, fun v => State.perform?_of_leads ?_⟩
  have hsteady : c.state.Steady c.state.world.registrations :=
    ⟨fun _ => rfl, hrun.quiet.world, hrun.named⟩
  have hbegin : Leads (Config.start c.state (.set name v))
      ⟨c.state, .run (p.validate v) (.validating i (.setting i .idle))⟩ := by
    apply Leads.of_step
    show some (c.state.operate .idle (.set name v)) = _
    simp only [State.operate, hname, hp, hsource, Option.isSome_none, Bool.false_eq_true, if_false]
    rfl
  obtain ⟨t, r, hresult, hlast, hupdate⟩ := (State.follows h).update hsteady hp v
    (k := (.setting i .idle : Stack V .update)) rfl
  have hended : Leads ⟨t, .updated r (.setting i .idle)⟩ (t.afterUpdate r (.setting i .idle)) :=
    .of_step rfl
  unfold State.walk
  rw [hresult]
  refine hbegin.trans (hupdate.trans (hended.trans ?_))
  simp only [State.afterUpdate, release_of_named hlast.named]
  cases r with
  | ok old => exact .refl _
  | error e => exact .refl _

/-- A follower that rejects the value stands before a listener in the list of the set property. -/
theorem set_eq_walk_rejected : ∃ (past : List (Config Bool)) (c : Config Bool),
    Run Op.IsQuiet past c ∧ c.state.world.registrations 0 = [.bound 1, .listener 0] ∧
      ∃ h : Acc (Feeds c.state.world.registrations) 0, ∀ v, ∃ n,
        c.state.perform? n (.set "p" v) =
          some ((c.state.walk 0 h v).1, .ofUpdate (c.state.walk 0 h v).2) := by
  have hp : Run Op.IsQuiet _
      (start {} (.act (.property "p" false (fun v => .stop (.ok v)) none))) :=
    .start ⟨fun _ => rfl, fun _ hr => by cases hr⟩
  have hq : Run Op.IsQuiet _ (start _ (.act (.property "q" true
      (fun _ => .stop (.error (.text "rejected"))) none))) :=
    (hp.step rfl).perform rfl ⟨fun _ => rfl, fun _ hr => by cases hr⟩
  have hbind : Run Op.IsQuiet _ (start _ (.act (.bind "q" "p"))) :=
    (hq.step rfl).perform rfl trivial
  have hchannel : Run Op.IsQuiet _ (start _ (.act (.channel "l" "r"))) :=
    (hbind.step rfl).perform rfl trivial
  have hadd : Run Op.IsQuiet _ (start _ (.act (.add "p" "l"))) :=
    (hchannel.step rfl).perform rfl trivial
  have hlast := hadd.step rfl
  exact ⟨_, _, hlast, rfl, hlast.set_eq_walk rfl rfl⟩

end Config

end Observable
