import Mathlib.Data.List.Induction
import PriceRelay.Proofs.List
import PriceRelay.Proofs.Size
/-!
# Weighing while functions are registered

Many weigh records with one registry, and others register functions meanwhile. A weighing holds the
registry while it looks at what is remembered, lets go of it, and holds it again to look once more
and remember what it derives. Anything may be done to the registry in between, and after a weighing
knows how a record is measured, too.

* `Weighing.step` is what a weighing does between letting others in,
* `Scales` are some weighings and the registry they share, `Scales.move` is what may happen next,
* `Scales.standing` is the function that was last registered for a kind,
* `plainSize` is the size of a record if nothing is remembered,
* `Scales.weighed_as_registered` says that a record is weighed by what is registered meanwhile.
-/

namespace PriceRelay

/-! ### One weighing -/

/-- How far a weighing is. -/
inductive WeighingStage
  /-- it has begun -/
  | begun
  /-- nothing was remembered of the kind -/
  | missed
  /-- it is known how the record is measured -/
  | resolved (how : Resolution)
  /-- the size is known -/
  | weighed (size : UInt64)

/-- How many steps there are left at most. -/
def WeighingStage.left : WeighingStage → Nat
  | begun => 3
  | missed => 2
  | resolved _ => 1
  | weighed _ => 0

/-- A record that is weighed. -/
structure Weighing where
  /-- the record -/
  record : Record
  /-- how far it is -/
  stage : WeighingStage := .begun

namespace Weighing

/-- What a weighing does next. The registry is let go of between any two steps. -/
def step (w : Weighing) (s : SizeRegistry) : Weighing × SizeRegistry :=
  match w.stage with
  | .begun =>
    match w.record.ownSize with
    | some size => (⟨w.record, .weighed size⟩, s)
    | none =>
      match s.peek w.record.kind with
      | some how => (⟨w.record, .resolved how⟩, s)
      | none => (⟨w.record, .missed⟩, s)
  | .missed => (⟨w.record, .resolved (s.settle w.record.kind).1⟩, (s.settle w.record.kind).2)
  | .resolved how => (⟨w.record, .weighed (how.apply w.record)⟩, s)
  | .weighed _ => (w, s)

/-- The size that a weighing will come to, once that is certain. -/
def told? (w : Weighing) : Option UInt64 :=
  match w.stage with
  | .begun => none
  | .missed => none
  | .resolved how => some (how.apply w.record)
  | .weighed size => some size

end Weighing

/-- The size of a record by the function registered for its kind, if there is one: what the record
says itself comes first, and last the formulas of the built-in kinds. -/
def plainSize (f : Option SizeFn) (r : Record) : UInt64 :=
  match r.ownSize with
  | some size => size
  | none =>
    match f with
    | some f => f r
    | none =>
      match r with
      | .aggregator p => p.size
      | .quoted p => p.size
      | .custom _ => 100

/-! ### What is remembered -/

namespace SizeRegistry

/-- Whatever is remembered is what would be derived now. -/
def Sound (s : SizeRegistry) : Prop := ∀ k how, s.peek k = some how → how = s.derive k

variable {s : SizeRegistry}

theorem Sound.register (h : s.Sound) (k : Record.Kind) (f : SizeFn) : (s.register k f).Sound := by
  intro k' how hpeek
  rw [peek, SizeRegistry.register, lookup_without] at hpeek
  split at hpeek
  · cases hpeek
  · next hk =>
    -- the functions of the other kinds are what they were
    have hreg : lookup k' (s.register k f).registered = lookup k' s.registered := by
      rw [SizeRegistry.register, lookup_cons_without, if_neg hk]
    rw [derive_congr hreg]
    exact h k' how hpeek

theorem registered_settle (s : SizeRegistry) (k : Record.Kind) :
    (s.settle k).2.registered = s.registered := by
  rw [settle]
  cases s.peek k <;> rfl

theorem Sound.settle_fst (h : s.Sound) (k : Record.Kind) : (s.settle k).1 = s.derive k := by
  rw [settle]
  cases hp : s.peek k with
  | some how => exact h k how hp
  | none => rfl

theorem Sound.settle (h : s.Sound) (k : Record.Kind) : (s.settle k).2.Sound := by
  intro k' how hpeek
  rw [derive_congr (congrArg (lookup k') (registered_settle s k))]
  rw [SizeRegistry.settle] at hpeek
  cases hp : s.peek k with
  | some _ =>
    rw [hp] at hpeek
    exact h k' how hpeek
  | none =>
    rw [hp] at hpeek
    change (if k = k' then some (s.derive k) else s.peek k') = some how at hpeek
    split at hpeek
    · next hk => rw [← hk, Option.some.inj hpeek]
    · exact h k' how hpeek

/-- A record that does not say its size is measured by what is registered for its kind. -/
theorem apply_derive (s : SizeRegistry) {r : Record} (hown : r.ownSize = none) :
    (s.derive r.kind).apply r = plainSize (lookup r.kind s.registered) r := by
  simp only [plainSize, hown, derive]
  cases lookup r.kind s.registered with
  | some f => rfl
  | none => cases r <;> rfl

/-- With nothing remembered that would not be derived, a record is weighed by what is registered. -/
theorem Sound.weigh (h : s.Sound) (r : Record) :
    s.weigh r = plainSize (lookup r.kind s.registered) r := by
  rw [SizeRegistry.weigh]
  cases hown : r.ownSize with
  | some size => simp only [plainSize, hown]
  | none =>
    rw [← apply_derive s hown, resolve_fst]
    cases hp : s.peek r.kind with
    | some how => rw [h _ _ hp, Option.getD_some]
    | none => rw [Option.getD_none]

end SizeRegistry

namespace Weighing

open SizeRegistry (lookup)

variable {w : Weighing} {s : SizeRegistry}

/-- The next step, with nobody in between. -/
def thenStep (p : Weighing × SizeRegistry) : Weighing × SizeRegistry := p.1.step p.2

/-- **A weighing that nobody comes between** gives the size of the record at once, and leaves what
is remembered then. -/
theorem steps_eq (r : Record) (s : SizeRegistry) :
    thenStep (thenStep (step ⟨r, .begun⟩ s)) = (⟨r, .weighed (s.weigh r)⟩, s.remember r) := by
  cases hown : r.ownSize with
  | some size => simp only [thenStep, step, hown, SizeRegistry.weigh, SizeRegistry.remember]
  | none =>
    cases hpeek : s.peek r.kind <;>
      simp only [thenStep, step, hown, hpeek, SizeRegistry.weigh, SizeRegistry.remember,
        SizeRegistry.resolve]

/-- The registry is looked at twice only for a record that does not say its size. -/
def Asks (w : Weighing) : Prop := w.stage = .missed → w.record.ownSize = none

/-- A step leaves the registry as it is, or is the second half of a look-up. -/
theorem snd_step (w : Weighing) (s : SizeRegistry) :
    (w.step s).2 = s ∨ (w.step s).2 = (s.settle w.record.kind).2 := by
  rw [step]
  split
  · split
    · exact .inl rfl
    · split <;> exact .inl rfl
  · exact .inr rfl
  · exact .inl rfl
  · exact .inl rfl

theorem record_step (w : Weighing) (s : SizeRegistry) : (w.step s).1.record = w.record := by
  rw [step]
  split
  · split
    · rfl
    · split <;> rfl
  all_goals rfl

theorem left_step (w : Weighing) (s : SizeRegistry) :
    (w.step s).1.stage.left ≤ w.stage.left - 1 := by
  rw [step]
  split
  · next h =>
    split
    · simp [WeighingStage.left]
    · split <;> simp [h, WeighingStage.left]
  all_goals next h => simp [h, WeighingStage.left]

theorem asks_step (hw : w.Asks) (s : SizeRegistry) : (w.step s).1.Asks := by
  rw [step]
  split
  · split
    · exact nofun
    · next hown =>
      split
      · exact nofun
      · exact fun _ => hown
  · exact nofun
  · exact nofun
  · exact hw

/-- **What a step makes certain** was certain before, or is what the registry says now. -/
theorem told?_step (hs : s.Sound) (hw : w.Asks) {v : UInt64} (hv : (w.step s).1.told? = some v) :
    w.told? = some v ∨
      0 < w.stage.left ∧ v = plainSize (lookup w.record.kind s.registered) w.record := by
  rw [step] at hv
  split at hv
  · next hstage =>
    refine .inr ⟨by rw [hstage]; decide, ?_⟩
    split at hv
    · next size hown =>
      simp only [plainSize, hown]
      exact (Option.some.inj hv).symm
    · next hown =>
      split at hv
      · next how hpeek =>
        rw [← SizeRegistry.apply_derive s hown, ← hs _ _ hpeek]
        exact (Option.some.inj hv).symm
      · cases hv
  · next hstage =>
    refine .inr ⟨by rw [hstage]; decide, ?_⟩
    rw [← SizeRegistry.apply_derive s (hw hstage), ← hs.settle_fst]
    exact (Option.some.inj hv).symm
  · next how hstage =>
    left
    simp only [told?, hstage]
    exact hv
  · exact .inl hv

end Weighing

/-! ### Many weighings -/

/-- Some weighings, by number, and the registry they share. Who weighs what does not matter. -/
structure Scales where
  /-- the registry -/
  registry : SizeRegistry := {}
  /-- the weighings -/
  weighings : List Weighing := []

namespace Scales

open SizeRegistry (lookup)

/-- What may happen next. -/
inductive Move
  /-- somebody registers a function -/
  | register (k : Record.Kind) (f : SizeFn)
  /-- somebody begins to weigh a record -/
  | begin (r : Record)
  /-- a weighing goes on -/
  | go (i : Nat)

/-- Whether a function is registered for a kind. -/
def Move.Registers (k : Record.Kind) : Move → Prop
  | register k' _ => k' = k
  | _ => False

/-- Whether it is the weighing of that number that goes on. -/
def Move.isGo (i : Nat) : Move → Bool
  | go j => j = i
  | _ => false

/-- Make a move; a weighing that is not there cannot go on. -/
def move (s : Scales) : Move → Scales
  | .register k f => { s with registry := s.registry.register k f }
  | .begin r => { s with weighings := s.weighings ++ [⟨r, .begun⟩] }
  | .go i =>
    match s.weighings[i]? with
    | none => s
    | some w => ⟨(w.step s.registry).2, s.weighings.set i (w.step s.registry).1⟩

/-- What some moves come to, one after another, from a new registry. -/
def run (moves : List Move) : Scales := moves.foldl move {}

/-- The function that was last registered for a kind. -/
def standing (k : Record.Kind) (moves : List Move) : Option SizeFn :=
  moves.foldl (fun last m => match m with
    | .register k' f => if k' = k then some f else last
    | _ => last) none

/-- A weighing has begun and is not over. -/
def Pending (s : Scales) (i : Nat) : Prop := ∃ w, s.weighings[i]? = some w ∧ 0 < w.stage.left

theorem run_concat (moves : List Move) (m : Move) : run (moves ++ [m]) = (run moves).move m :=
  List.foldl_concat ..

theorem standing_register (k k' : Record.Kind) (f : SizeFn) (moves : List Move) :
    standing k (moves ++ [.register k' f]) = if k' = k then some f else standing k moves :=
  List.foldl_concat ..

theorem standing_concat {k : Record.Kind} {m : Move} (h : ¬ m.Registers k) (moves : List Move) :
    standing k (moves ++ [m]) = standing k moves := by
  cases m with
  | register k' f =>
    have hk : ¬ k' = k := h
    rw [standing_register, if_neg hk]
  | begin r => exact List.foldl_concat ..
  | go i => exact List.foldl_concat ..

theorem standing_append {k : Record.Kind} (moves : List Move) {more : List Move}
    (h : ∀ m ∈ more, ¬ m.Registers k) : standing k (moves ++ more) = standing k moves := by
  induction more using List.reverseRecOn with
  | nil => rw [List.append_nil]
  | append_singleton more m ih =>
    rw [← List.append_assoc, standing_concat (h m (by simp)),
      ih fun m' hm' => h m' (List.mem_append_left _ hm')]

/-! ### What is registered and remembered -/

theorem move_go {s : Scales} {i : Nat} {w : Weighing} (hw : s.weighings[i]? = some w) :
    s.move (.go i) = ⟨(w.step s.registry).2, s.weighings.set i (w.step s.registry).1⟩ := by
  rw [move, hw]

theorem move_go_of_none {s : Scales} {i : Nat} (hw : s.weighings[i]? = none) :
    s.move (.go i) = s := by
  rw [move, hw]

/-- A move other than a registration leaves the registry as it is, or is the second half of a
look-up. -/
theorem registry_go (s : Scales) (i : Nat) :
    (s.move (.go i)).registry = s.registry ∨
      ∃ k, (s.move (.go i)).registry = (s.registry.settle k).2 := by
  cases hw : s.weighings[i]? with
  | none => exact .inl (by rw [move_go_of_none hw])
  | some w =>
    rw [move_go hw]
    rcases w.snd_step s.registry with h | h
    · exact .inl h
    · exact .inr ⟨_, h⟩

/-- **Whatever is remembered is what would be derived**, however the moves are interleaved. -/
theorem sound_run (moves : List Move) : (run moves).registry.Sound := by
  induction moves using List.reverseRecOn with
  | nil => exact nofun
  | append_singleton moves m ih =>
    rw [run_concat]
    cases m with
    | register k f => exact ih.register k f
    | begin r => exact ih
    | go i =>
      rcases (run moves).registry_go i with h | ⟨k, h⟩
      · rw [h]
        exact ih
      · rw [h]
        exact ih.settle k

/-- The function registered for a kind is the last one. -/
theorem lookup_registered_run (k : Record.Kind) (moves : List Move) :
    lookup k (run moves).registry.registered = standing k moves := by
  induction moves using List.reverseRecOn with
  | nil => rfl
  | append_singleton moves m ih =>
    rw [run_concat]
    cases m with
    | register k' f =>
      rw [standing_register, ← ih]
      exact SizeRegistry.lookup_cons_without k k' f _
    | begin r =>
      rw [standing_concat id]
      exact ih
    | go i =>
      rw [standing_concat id]
      rcases (run moves).registry_go i with h | ⟨k', h⟩
      · rw [h]
        exact ih
      · rw [h, SizeRegistry.registered_settle]
        exact ih

/-! ### How one weighing goes -/

theorem getElem?_move {s : Scales} {i : Nat} {w : Weighing} (hw : s.weighings[i]? = some w)
    (m : Move) :
    (s.move m).weighings[i]? = some (if m.isGo i then (w.step s.registry).1 else w) := by
  have hlt : i < s.weighings.length := (List.getElem?_eq_some_iff.mp hw).1
  cases m with
  | register k f => exact hw
  | begin r => exact (List.getElem?_append_left hlt).trans hw
  | go j =>
    by_cases hj : j = i
    · subst hj
      rw [move_go hw]
      simp [Move.isGo, hlt]
    · cases hwj : s.weighings[j]? with
      | none =>
        rw [move_go_of_none hwj]
        simpa [Move.isGo, hj] using hw
      | some w' =>
        rw [move_go hwj]
        simpa [Move.isGo, hj, List.getElem?_set_ne hj] using hw

/-- A weighing that is over stays so. -/
theorem Pending.of_move {s : Scales} {i : Nat} {w : Weighing} (hw : s.weighings[i]? = some w)
    {m : Move} (h : (s.move m).Pending i) : s.Pending i := by
  obtain ⟨w', hw', hleft⟩ := h
  obtain rfl := Option.some.inj ((getElem?_move hw m).symm.trans hw')
  refine ⟨w, hw, ?_⟩
  split at hleft
  · exact Nat.lt_of_lt_of_le hleft (Nat.le_trans (w.left_step s.registry) (Nat.sub_le ..))
  · exact hleft

theorem Pending.of_append {moves more : List Move} {i : Nat} {w : Weighing}
    (hw : (run moves).weighings[i]? = some w) (h : (run (moves ++ more)).Pending i) :
    (run moves).Pending i := by
  induction more generalizing moves w with
  | nil => rwa [List.append_nil] at h
  | cons m more ih =>
    rw [List.append_cons] at h
    have hmove := ih (run_concat moves m ▸ getElem?_move hw m) h
    rw [run_concat] at hmove
    exact hmove.of_move hw

/-- How a weighing of `r` stands that began after `start`, with `during` since then. -/
structure Under (start : List Move) (r : Record) (during : List Move) (w : Weighing) : Prop where
  /-- it is the weighing of that number -/
  getElem? : (run (start ++ .begin r :: during)).weighings[(run start).weighings.length]? = some w
  /-- it is the record that is weighed -/
  record : w.record = r
  /-- the registry is looked at twice only if the record does not say its size -/
  asks : w.Asks
  /-- with every step it made there is one less left -/
  left : w.stage.left ≤ 3 - during.countP (Move.isGo (run start).weighings.length)
  /-- if its size is certain, it is by what was registered at some moment when it was not over -/
  told : ∀ v, w.told? = some v → ∃ earlier later, during = earlier ++ later ∧
    (run (start ++ .begin r :: earlier)).Pending (run start).weighings.length ∧
    v = plainSize (standing r.kind (start ++ .begin r :: earlier)) r

theorem under_nil (start : List Move) (r : Record) : Under start r [] ⟨r, .begun⟩ where
  getElem? := by
    rw [run_concat]
    exact List.getElem?_concat_length ..
  record := rfl
  asks := nofun
  left := Nat.le_refl 3
  told := nofun

theorem run_during_concat (start : List Move) (r : Record) (during : List Move) (m : Move) :
    run (start ++ .begin r :: (during ++ [m])) = (run (start ++ .begin r :: during)).move m := by
  rw [← List.cons_append, ← List.append_assoc, run_concat]

/-- A move of another kind than a step of the weighing leaves it alone. -/
theorem Under.others {start during : List Move} {r : Record} {w : Weighing}
    (h : Under start r during w) {m : Move}
    (hm : m.isGo (run start).weighings.length = false) : Under start r (during ++ [m]) w where
  getElem? := by
    rw [run_during_concat, getElem?_move h.getElem?, hm]
    rfl
  record := h.record
  asks := h.asks
  left := by
    rw [List.countP_append, List.countP_singleton, hm]
    exact h.left
  told v hv := by
    obtain ⟨earlier, later, rfl, hpending, hsize⟩ := h.told v hv
    exact ⟨earlier, later ++ [m], List.append_assoc .., hpending, hsize⟩

theorem Under.go {start during : List Move} {r : Record} {w : Weighing}
    (h : Under start r during w) {m : Move} (hm : m.isGo (run start).weighings.length = true) :
    Under start r (during ++ [m]) (w.step (run (start ++ .begin r :: during)).registry).1 where
  getElem? := by
    rw [run_during_concat, getElem?_move h.getElem?, hm]
    rfl
  record := (w.record_step _).trans h.record
  asks := Weighing.asks_step h.asks _
  left := by
    rw [List.countP_append, List.countP_singleton, hm]
    have hstep := w.left_step (run (start ++ .begin r :: during)).registry
    have hleft := h.left
    simp only [if_true]
    omega
  told v hv := by
    rcases Weighing.told?_step (sound_run _) h.asks hv with hv | ⟨hpending, hsize⟩
    · obtain ⟨earlier, later, rfl, hpending, hsize⟩ := h.told v hv
      exact ⟨earlier, later ++ [m], List.append_assoc .., hpending, hsize⟩
    · -- the registry is asked right now
      rw [h.record, lookup_registered_run] at hsize
      exact ⟨during, [m], rfl, ⟨w, h.getElem?, hpending⟩, hsize⟩

/-- **However a weighing and the others take turns**, it stands as it should. -/
theorem exists_under (start : List Move) (r : Record) (during : List Move) :
    ∃ w, Under start r during w := by
  induction during using List.reverseRecOn with
  | nil => exact ⟨_, under_nil start r⟩
  | append_singleton during m ih =>
    obtain ⟨w, h⟩ := ih
    cases hm : m.isGo (run start).weighings.length with
    | false => exact ⟨w, h.others hm⟩
    | true => exact ⟨_, h.go hm⟩

/-! ### Every size is that of a moment -/

/-- If no function is registered for the kind of a record while it is weighed, its size is by the
function that stood before. -/
theorem standing_of_not_during {start earlier : List Move} {r : Record}
    (hpending : (run (start ++ .begin r :: earlier)).Pending (run start).weighings.length)
    (hnone : ∀ before m after, earlier = before ++ m :: after →
      (run (start ++ .begin r :: before)).Pending (run start).weighings.length →
      ¬ m.Registers r.kind) :
    standing r.kind (start ++ .begin r :: earlier) = standing r.kind start := by
  refine standing_append start fun m hm => ?_
  rcases List.mem_cons.mp hm with rfl | hm
  · exact id
  · obtain ⟨before, after, rfl⟩ := List.append_of_mem hm
    obtain ⟨w, hw⟩ := exists_under start r before
    rw [← List.cons_append, ← List.append_assoc] at hpending
    exact hnone before m after rfl (Pending.of_append hw.getElem? hpending)

/-- How a weighing of `r` comes out that began after `start`, with `during` since then. -/
structure Outcome (start : List Move) (r : Record) (during : List Move) (stage : WeighingStage) :
    Prop where
  /-- it is that far -/
  getElem? : (run (start ++ .begin r :: during)).weighings[(run start).weighings.length]? =
    some ⟨r, stage⟩
  /-- it is over once it went on three times -/
  ends : 3 ≤ during.countP (Move.isGo (run start).weighings.length) → ∃ size, stage = .weighed size
  /-- the size is the plain one by the function registered at some moment when it was not over -/
  meanwhile : ∀ size, stage = .weighed size → ∃ earlier later, during = earlier ++ later ∧
    (run (start ++ .begin r :: earlier)).Pending (run start).weighings.length ∧
    size = plainSize (standing r.kind (start ++ .begin r :: earlier)) r
  /-- that is the one from before, if none was registered for the kind until it was over -/
  undisturbed : ∀ size, stage = .weighed size →
    (∀ before m after, during = before ++ m :: after →
      (run (start ++ .begin r :: before)).Pending (run start).weighings.length →
      ¬ m.Registers r.kind) →
    size = plainSize (standing r.kind start) r

theorem Under.outcome {start during : List Move} {r : Record} {stage : WeighingStage}
    (h : Under start r during ⟨r, stage⟩) : Outcome start r during stage where
  getElem? := h.getElem?
  ends hgoes := by
    have hleft := h.left
    cases stage with
    | weighed size => exact ⟨size, rfl⟩
    | begun | missed | resolved => simp only [WeighingStage.left] at hleft; omega
  meanwhile := by
    rintro size rfl
    exact h.told size rfl
  undisturbed := by
    rintro size rfl hnone
    obtain ⟨earlier, later, rfl, hpending, hsize⟩ := h.told size rfl
    rw [hsize, standing_of_not_during hpending fun before m after heq => ?_]
    exact hnone before m (after ++ later) (by rw [heq, List.append_assoc, List.cons_append])

/-- **Everything is weighed by what is registered.** However registrations and the steps of any
number of weighings are interleaved: what is remembered of a kind is what would be derived from what
is registered for it now, so that whoever weighs a record then is told the plain size. A weighing
that others come between is told the plain size by what was registered at some moment meanwhile. -/
theorem weighed_as_registered (moves : List Move) :
    (∀ k, lookup k (run moves).registry.registered = standing k moves) ∧
    (∀ k how, (run moves).registry.peek k = some how → how = (run moves).registry.derive k) ∧
    (∀ r, (run moves).registry.weigh r = plainSize (standing r.kind moves) r) ∧
    ∀ start r during, moves = start ++ .begin r :: during →
      ∃ stage, Outcome start r during stage := by
  refine ⟨fun k => lookup_registered_run k moves, sound_run moves, fun r => ?_, ?_⟩
  · rw [(sound_run moves).weigh, lookup_registered_run]
  · rintro start r during rfl
    obtain ⟨⟨r, stage⟩, h⟩ := exists_under start r during
    obtain rfl := h.record
    exact ⟨stage, h.outcome⟩

/-- A record that does not say its size. -/
def bareRecord : Record := .custom ⟨"swap", .chainlink, 0, "a", 0, 0, .epoch 0, none⟩

/-- A function is registered between the halves of a look-up, and another one after it. -/
def crossing : List Move :=
  [.go 0, .register (.custom "swap") fun _ => 7, .go 0,
    .register (.custom "swap") fun _ => 9, .go 0]

/-- The record is weighed by the function that came between, which stood when it was looked up. The
next one is measured by the other function, without anybody in between. -/
theorem weighed_as_registered_crossing :
    (∃ earlier later, crossing = earlier ++ later ∧
      (run (.begin bareRecord :: earlier)).Pending 0 ∧
      7 = plainSize (standing (.custom "swap") (.begin bareRecord :: earlier)) bareRecord) ∧
    plainSize (standing (.custom "swap") (.begin bareRecord :: crossing)) bareRecord = 9 ∧
    (run (.begin bareRecord :: crossing ++
        [.begin bareRecord, .go 1, .go 1, .go 1])).weighings[1]? =
      some ⟨bareRecord, .weighed 9⟩ := by
  obtain ⟨-, -, -, hfirst⟩ := weighed_as_registered (.begin bareRecord :: crossing)
  obtain ⟨stage, hout⟩ := hfirst [] bareRecord crossing rfl
  have hstage : stage = .weighed 7 := congrArg Weighing.stage (Option.some.inj hout.getElem?).symm
  refine ⟨hout.meanwhile 7 hstage, by rfl, ?_⟩
  obtain ⟨-, -, -, hnext⟩ := weighed_as_registered
    (.begin bareRecord :: crossing ++ [.begin bareRecord, .go 1, .go 1, .go 1])
  obtain ⟨stage', hout'⟩ :=
    hnext (.begin bareRecord :: crossing) bareRecord [.go 1, .go 1, .go 1] rfl
  obtain ⟨size, rfl⟩ := hout'.ends (by decide)
  have hsize : size = 9 := hout'.undisturbed size rfl fun before m after heq _ => by
    have hm : m ∈ [Move.go 1, Move.go 1, Move.go 1] := heq ▸ List.mem_append_right _ (.head _)
    have hgo : m = .go 1 := by simpa using hm
    rw [hgo]
    exact id
  rw [← hsize]
  exact hout'.getElem?

end Scales

end PriceRelay
