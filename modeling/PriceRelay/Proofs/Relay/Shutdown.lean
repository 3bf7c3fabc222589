import Mathlib.Data.List.Basic
import PriceRelay.Relay.Loops
/-!
# When a loop stops

A waiting loop that is told to stop and has no tick to take stops at once. But it looks for both at
the same time, and where a round has taken longer than the time between two ticks, both are there:
then chance decides, and a loop that has been told to stop may begin another round.

* `LoopRun.Look` is what a loop finds as it goes on, `LoopRun.Event` what happens to it,
* `LoopRun.Course` are the runs of a loop among others, `LoopRun.Course.poll` says that looking at a
  loop is such a run,
* `LoopRun.Stands` says where a loop stands: its ticks are those of its schedule, and after the stop
  it takes only those that are overdue and that chance takes,
* `LoopRun.round_after_stop_iff` says when a round begins after the stop,
  `LoopRun.round_after_stop` that this happens.
-/

namespace PriceRelay

variable {σ : Type}

/-- The schedule after so many ticks were taken. -/
def Ticker.after (t : Ticker) (k : Nat) : Ticker := { t with next := t.next + k * t.period }

theorem Ticker.taken_after (t : Ticker) (k : Nat) : (t.after k).taken = t.after (k + 1) := by
  rw [taken, after, after, Nat.add_assoc, Nat.succ_mul]

namespace LoopRun

/-- What a waiting loop finds as it goes on. -/
structure Look where
  /-- the time -/
  time : Duration
  /-- when its next tick is due -/
  tick : Duration
  /-- what chance takes of the tick and the stop, if both are there -/
  preferred : Loop.Wake
deriving DecidableEq, Repr

/-- What happens to a loop. -/
inductive Event
  /-- it takes a tick, and begins a round -/
  | round (look : Look)
  /-- it is told to stop -/
  | told
  /-- it takes the stop -/
  | stopped (look : Look)
deriving DecidableEq, Repr

/-- What a loop that waits finds now. -/
def look (t : Ticker) (r : Relay σ) : Look := ⟨r.now, t.next, r.chance r.draws⟩

/-- What happens in the next step of a loop. -/
def events (stopping : Bool) (l : LoopRun) (r : Relay σ) : List Event :=
  match l.phase with
  | .idle t _ =>
    match (r.rouse (t.isDue r.now) stopping).1 with
    | none => []
    | some .tick => [.round (look t r)]
    | some .stop => [.stopped (look t r)]
  | _ => []

section Course

variable (owner : Nat) (kind : Kind) (r₀ : Relay σ)

/-- The runs of a loop that begins at `r₀`, with what has happened to it and whether it was told to
stop. In between time passes, and others do what they like. -/
inductive Course : List Event → Bool → LoopRun → Relay σ → Prop
  /-- it waits for its first tick -/
  | begin : Course [] false (rest ⟨kind, .fresh⟩ (ticker r₀ kind) r₀).1
      (rest ⟨kind, .fresh⟩ (ticker r₀ kind) r₀).2
  /-- others go on -/
  | others {log stopping l r r'} : Course log stopping l r → r.now ≤ r'.now →
      Course log stopping l r'
  /-- it is told to stop -/
  | told {log l r} : Course log false l r → Course (log ++ [.told]) true l r
  /-- it goes on -/
  | step {log stopping l r l' r' again} : Course log stopping l r →
      l.step owner stopping r = ((l', r'), again) →
      Course (log ++ l.events stopping r) stopping l' r'

end Course

variable {owner : Nat} {kind : Kind} {r₀ r r' : Relay σ} {log : List Event} {stopping : Bool}
  {l l' : LoopRun}

theorem Course.wait (h : Course owner kind r₀ log stopping l r) (time : Duration) :
    Course owner kind r₀ log stopping l { r with now := r.now + time } :=
  h.others (Nat.le_add_right ..)

theorem Course.go (h : Course owner kind r₀ log stopping l r) :
    Course owner kind r₀ (log ++ l.events stopping r) stopping (l.step owner stopping r).1.1
      (l.step owner stopping r).1.2 :=
  h.step rfl

theorem Course.pollFor (h : Course owner kind r₀ log stopping l r) (fuel : Nat) :
    ∃ more, Course owner kind r₀ (log ++ more) stopping
      (l.pollFor owner stopping fuel r).1 (l.pollFor owner stopping fuel r).2 := by
  induction fuel generalizing log l r with
  | zero => exact ⟨[], by rwa [List.append_nil]⟩
  | succ fuel ih =>
    rw [LoopRun.pollFor]
    split
    · next s hstep => exact ⟨_, h.step hstep⟩
    · next l' r' hstep =>
      obtain ⟨more, hmore⟩ := ih (h.step hstep)
      rw [List.append_assoc] at hmore
      exact ⟨_, hmore⟩

/-- **To look at a loop is to let it go on.** -/
theorem Course.poll (h : Course owner kind r₀ log stopping l r) :
    ∃ more, Course owner kind r₀ (log ++ more) stopping (l.poll owner stopping r).1
      (l.poll owner stopping r).2 :=
  h.pollFor Relay.patience

/-- To look for the first time at a loop that was started is such a run as well. -/
theorem course_poll_fresh (owner : Nat) (kind : Kind) (r₀ : Relay σ) :
    ∃ log, Course owner kind r₀ log false ((⟨kind, .fresh⟩ : LoopRun).poll owner false r₀).1
      ((⟨kind, .fresh⟩ : LoopRun).poll owner false r₀).2 := by
  obtain ⟨fuel, hfuel⟩ : ∃ fuel, Relay.patience = fuel + 1 := ⟨99999999999, rfl⟩
  have hbegin : Course owner kind r₀ [] false _ _ := .begin
  obtain ⟨log, hlog⟩ := hbegin.pollFor fuel
  refine ⟨log, ?_⟩
  rw [poll, hfuel]
  exact hlog

/-! ### Where a loop stands -/

/-- The schedule of a loop that has not stopped. -/
def schedule? (l : LoopRun) : Option Ticker :=
  match l.phase with
  | .idle t _ => some t
  | .probing t _ => some t
  | .fetching t _ => some t
  | _ => none

theorem schedule?_beginRound (l : LoopRun) (t : Ticker) (r : Relay σ) :
    (l.beginRound t r).1.schedule? = some t := by
  rw [beginRound]
  split <;> rfl

/-- Why a waiting loop goes on. -/
theorem rouse_cases (t : Ticker) (stopping : Bool) (r : Relay σ) :
    (r.rouse (t.isDue r.now) stopping).1 = none ∨
    ((r.rouse (t.isDue r.now) stopping).1 = some .tick ∧ t.next ≤ r.now ∧
      (stopping = true → (look t r).preferred = .tick)) ∨
    ((r.rouse (t.isDue r.now) stopping).1 = some .stop ∧ stopping = true ∧
      (r.now < t.next ∨ (look t r).preferred = .stop)) := by
  rw [Relay.rouse, Ticker.isDue, look]
  by_cases hdue : t.next ≤ r.now
  · rw [decide_eq_true hdue]
    cases stopping with
    | false => exact .inr (.inl ⟨rfl, hdue, fun h => (nomatch h)⟩)
    | true =>
      cases hchance : r.chance r.draws with
      | tick => exact .inr (.inl ⟨rfl, hdue, fun _ => rfl⟩)
      | stop => exact .inr (.inr ⟨rfl, rfl, .inr rfl⟩)
  · rw [decide_eq_false hdue]
    cases stopping with
    | false => exact .inl rfl
    | true => exact .inr (.inr ⟨rfl, rfl, .inl (Nat.lt_of_not_le hdue)⟩)

/-- **What one step of a loop does.** It goes on with what it is at, takes a tick that is due, or
takes the stop. -/
theorem step_cases {t : Ticker} {again : Bool} (ht : l.schedule? = some t)
    (h : l.step owner stopping r = ((l', r'), again)) :
    (l.events stopping r = [] ∧ l'.schedule? = some t) ∨
    (l.events stopping r = [.round (look t r)] ∧ l'.schedule? = some t.taken ∧ t.next ≤ r.now ∧
      (stopping = true → (look t r).preferred = .tick)) ∨
    (l.events stopping r = [.stopped (look t r)] ∧ l'.phase = .stopped ∧ stopping = true ∧
      (r.now < t.next ∨ (look t r).preferred = .stop)) := by
  obtain ⟨kind, phase⟩ := l
  cases phase with
  | fresh => cases ht
  | stopped => cases ht
  | probing t' round =>
    obtain rfl := Option.some.inj ht
    refine .inl ⟨rfl, ?_⟩
    rw [step] at h
    dsimp only at h
    split at h
    · obtain ⟨rfl, -⟩ := Prod.ext_iff.mp (Prod.ext_iff.mp h).1
      rfl
    · obtain ⟨rfl, -⟩ := Prod.ext_iff.mp (Prod.ext_iff.mp h).1
      rfl
  | fetching t' cycle =>
    obtain rfl := Option.some.inj ht
    refine .inl ⟨rfl, ?_⟩
    rw [step] at h
    dsimp only at h
    split at h
    · obtain ⟨rfl, -⟩ := Prod.ext_iff.mp (Prod.ext_iff.mp h).1
      rfl
    · obtain ⟨rfl, -⟩ := Prod.ext_iff.mp (Prod.ext_iff.mp h).1
      rfl
  | idle t' stamp =>
    obtain rfl := Option.some.inj ht
    rw [step] at h
    rw [events]
    dsimp only at h ⊢
    rcases rouse_cases t' stopping r with hwhy | ⟨hwhy, hdue, hchance⟩ | ⟨hwhy, htold, hchance⟩
    · rw [hwhy] at h ⊢
      obtain ⟨rfl, -⟩ := Prod.ext_iff.mp (Prod.ext_iff.mp h).1
      exact .inl ⟨rfl, rfl⟩
    · rw [hwhy] at h ⊢
      obtain ⟨rfl, -⟩ := Prod.ext_iff.mp (Prod.ext_iff.mp h).1
      exact .inr (.inl ⟨rfl, schedule?_beginRound .., hdue, hchance⟩)
    · rw [hwhy] at h ⊢
      obtain ⟨rfl, -⟩ := Prod.ext_iff.mp (Prod.ext_iff.mp h).1
      exact .inr (.inr ⟨rfl, rfl, htold, hchance⟩)

/-- The ticks that were taken `before` the stop and `after` it are those of the schedule, were due,
and after the stop were taken by chance. -/
structure Ticks (t₀ : Ticker) (before after : List Look) : Prop where
  /-- they are taken in turn, when they are due -/
  due : ∀ i look, (before ++ after)[i]? = some look →
    look.tick = (t₀.after i).next ∧ look.tick ≤ look.time
  /-- after the stop by chance -/
  preferred : ∀ look ∈ after, look.preferred = .tick

/-- Where a loop stands that began with a schedule. -/
inductive Stands (t₀ : Ticker) : List Event → Bool → LoopRun → Prop
  /-- it was not told to stop -/
  | running {before l} : Ticks t₀ before [] → l.schedule? = some (t₀.after before.length) →
      Stands t₀ (before.map .round) false l
  /-- it was told to stop, and has not done so -/
  | told {before after l} : Ticks t₀ before after →
      l.schedule? = some (t₀.after (before.length + after.length)) →
      Stands t₀ (before.map .round ++ .told :: after.map .round) true l
  /-- it has stopped -/
  | stopped {before after look l} : Ticks t₀ before after → l.phase = .stopped →
      look.tick = (t₀.after (before.length + after.length)).next →
      (look.time < look.tick ∨ look.preferred = .stop) →
      Stands t₀ (before.map .round ++ .told :: (after.map .round ++ [.stopped look])) true l

theorem ticks_nil (t₀ : Ticker) : Ticks t₀ [] [] :=
  ⟨fun i look h => by simp at h, fun look h => (nomatch h)⟩

/-- The first tick that is taken after the stop is the next one of the schedule. -/
theorem Ticks.tick_head {t₀ : Ticker} {before rest : List Look} {look : Look}
    (h : Ticks t₀ before (look :: rest)) :
    look.tick = t₀.next + before.length * t₀.period := by
  have hget : (before ++ look :: rest)[before.length]? = some look := by
    rw [List.getElem?_append_right (Nat.le_refl _), Nat.sub_self]
    rfl
  exact (h.due _ _ hget).1

/-- One more tick is taken. -/
theorem due_concat {t₀ : Ticker} {looks : List Look}
    (h : ∀ i look, looks[i]? = some look → look.tick = (t₀.after i).next ∧ look.tick ≤ look.time)
    {look : Look} (htick : look.tick = (t₀.after looks.length).next)
    (hdue : look.tick ≤ look.time) (i : Nat) (look' : Look)
    (hi : (looks ++ [look])[i]? = some look') :
    look'.tick = (t₀.after i).next ∧ look'.tick ≤ look'.time := by
  rcases Nat.lt_or_ge i looks.length with hlt | hge
  · rw [List.getElem?_append_left hlt] at hi
    exact h i look' hi
  · obtain ⟨hlt, -⟩ := List.getElem?_eq_some_iff.mp hi
    rw [List.length_append, List.length_singleton] at hlt
    obtain rfl : i = looks.length := by omega
    rw [List.getElem?_concat_length] at hi
    rw [← Option.some.inj hi]
    exact ⟨htick, hdue⟩

/-- **Every step keeps to the schedule.** -/
theorem Stands.step {t₀ : Ticker} (h : Stands t₀ log stopping l) {again : Bool}
    (hstep : l.step owner stopping r = ((l', r'), again)) :
    Stands t₀ (log ++ l.events stopping r) stopping l' := by
  cases h with
  | @running before _ hticks hl =>
    rcases step_cases hl hstep with ⟨hevents, hl'⟩ | ⟨hevents, hl', hdue, -⟩ | ⟨-, -, htold, -⟩
    · rw [hevents, List.append_nil]
      exact .running hticks hl'
    · have hbefore : Ticks t₀ (before ++ [look (t₀.after before.length) r]) [] := by
        refine ⟨?_, fun look h => (nomatch h)⟩
        have hold := hticks.due
        rw [List.append_nil] at hold ⊢
        exact due_concat hold rfl hdue
      have hlog : before.map Event.round ++ [.round (look (t₀.after before.length) r)] =
          (before ++ [look (t₀.after before.length) r]).map .round := by
        rw [List.map_append]
        rfl
      rw [hevents, hlog]
      refine .running hbefore ?_
      rw [hl', Ticker.taken_after, List.length_append]
      rfl
    · cases htold
  | @told before after _ hticks hl =>
    rcases step_cases hl hstep with ⟨hevents, hl'⟩ | ⟨hevents, hl', hdue, hchance⟩ |
      ⟨hevents, hl', -, hchance⟩
    · rw [hevents, List.append_nil]
      exact .told hticks hl'
    · have hafter :
          Ticks t₀ before (after ++ [look (t₀.after (before.length + after.length)) r]) := by
        refine ⟨?_, fun look' h => ?_⟩
        · rw [← List.append_assoc]
          refine due_concat hticks.due ?_ hdue
          rw [List.length_append]
          rfl
        · rcases List.mem_append.mp h with h | h
          · exact hticks.preferred look' h
          · rw [List.mem_singleton.mp h]
            exact hchance rfl
      have hlog : before.map Event.round ++ .told :: after.map .round ++
          [.round (look (t₀.after (before.length + after.length)) r)] = before.map Event.round ++
            .told :: (after ++ [look (t₀.after (before.length + after.length)) r]).map .round := by
        rw [List.map_append, List.append_assoc]
        rfl
      rw [hevents, hlog]
      refine .told hafter ?_
      rw [hl', Ticker.taken_after, List.length_append, Nat.add_assoc]
      rfl
    · rw [hevents, List.append_assoc]
      exact .stopped hticks hl' rfl hchance
  | @stopped before after look _ hticks hl htick hlook =>
    obtain ⟨kind, phase⟩ := l
    obtain rfl : phase = .stopped := hl
    obtain ⟨rfl, -⟩ := Prod.mk.inj (Prod.mk.inj hstep).1
    rw [events, List.append_nil]
    exact .stopped hticks rfl htick hlook

/-- **Every run keeps to the schedule.** -/
theorem Course.stands (h : Course owner kind r₀ log stopping l r) :
    Stands (ticker r₀ kind) log stopping l := by
  induction h with
  | begin =>
    have hnone : Ticks (ticker r₀ kind) [] [] := ticks_nil _
    refine .running hnone ?_
    rw [List.length_nil, Ticker.after, Nat.zero_mul]
    rfl
  | others _ _ ih => exact ih
  | told _ ih =>
    cases ih with
    | running hticks hl =>
      have htold := Stands.told hticks hl
      exact htold
  | step _ hstep ih => exact ih.step hstep

/-! ### Rounds after the stop -/

/-- Any tick that is taken after the stop was due, and is taken by chance. -/
theorem Ticks.of_mem {t₀ : Ticker} {before after : List Look} {look : Look}
    (h : Ticks t₀ before after) (hlook : look ∈ after) :
    look.tick ≤ look.time ∧ look.preferred = .tick := by
  obtain ⟨i, hi⟩ := List.mem_iff_getElem?.mp (List.mem_append_right before hlook)
  exact ⟨(h.due i look hi).2, h.preferred look hlook⟩

/-- **When a round begins after the stop.** Of a loop that was told to stop, every round it begins
from then on takes a tick that is overdue, and takes it by chance. As soon as it goes on it has
looked for its next tick and the stop, and whether it begins a round at all is decided there: it
does exactly when the tick was due by then, which is that its rounds took longer than the time
between its ticks, and chance took the tick; else it has stopped. -/
theorem round_after_stop_iff (h : Course owner kind r₀ log true l r) :
    ∃ (before : List Look) (after : List Event), log = before.map .round ++ .told :: after ∧
      (∀ look, .round look ∈ after → look.tick ≤ look.time ∧ look.preferred = .tick) ∧
      (after = [] ∨ ∃ look rest, (after = .round look :: rest ∨ after = [.stopped look]) ∧
        look.tick = (ticker r₀ kind).next + before.length * (ticker r₀ kind).period ∧
        ((∃ look', .round look' ∈ after) ↔ look.tick ≤ look.time ∧ look.preferred = .tick)) := by
  cases h.stands with
  | @told before after _ hticks hl =>
    refine ⟨before, after.map .round, rfl, fun look hlook => hticks.of_mem (by simpa using hlook),
      ?_⟩
    cases after with
    | nil => exact .inl rfl
    | cons look rest =>
      obtain ⟨hdue, hchance⟩ := hticks.of_mem (List.mem_cons_self ..)
      exact .inr ⟨look, rest.map .round, .inl rfl, hticks.tick_head,
        iff_of_true ⟨look, List.mem_cons_self ..⟩ ⟨hdue, hchance⟩⟩
  | @stopped before after look _ hticks hl htick hlook =>
    refine ⟨before, after.map .round ++ [.stopped look], rfl,
      fun look hlook => hticks.of_mem (by simpa using hlook), .inr ?_⟩
    cases after with
    | nil =>
      refine ⟨look, [], .inr rfl, htick, iff_of_false (by simp) fun ⟨hdue, hchance⟩ => ?_⟩
      rcases hlook with hearly | hstop
      · exact absurd hdue (Nat.not_le_of_lt hearly)
      · rw [hchance] at hstop
        cases hstop
    | cons first rest =>
      obtain ⟨hdue, hchance⟩ := hticks.of_mem (List.mem_cons_self ..)
      exact ⟨first, rest.map .round ++ [.stopped look], .inl rfl, hticks.tick_head,
        iff_of_true ⟨first, List.mem_cons_self ..⟩ ⟨hdue, hchance⟩⟩

/-- A relay that probes one endpoint every second. The first round trip takes longer than that, and
chance takes the tick. Outside the round trips are counted. -/
def overrunning : Relay Nat where
  tunables := { probeInterval := .ofMillis 1000 }
  providers := {
    roundTrip := fun _ _ trips => (⟨.ofMillis (if trips = 0 then 1500 else 100), true⟩, trips + 1)
    readRound := fun _ _ trips => (⟨0, .error (.remote "no contract")⟩, trips)
    readDone := id
    quotes := none }
  outside := 0
  selector := { listed := ⟨[(1, ["http://a"])]⟩ }
  cache := .ofCap 1000
  limiter := .ofCount 1
  chance := fun _ => .tick

/-- The round that the loop begins when its first tick is due. -/
def first : Look := ⟨.ofMillis 1000, .ofMillis 1000, .tick⟩

/-- The round that it begins half a second after its second tick was due. -/
def overdue : Look := ⟨.ofMillis 2500, .ofMillis 2000, .tick⟩

/-- The loop is told to stop while its first round is under way, and sends another round trip all
the same: when the first round is over, the second tick is overdue. -/
theorem course_overrunning :
    ∃ l l' r r', Course 1 (.probing 1) overrunning [.round first, .told] true l r ∧
      Course 1 (.probing 1) overrunning [.round first, .told, .round overdue] true l' r' ∧
      r.outside = 1 ∧ r'.outside = 2 := by
  have hwaits : Course 1 (.probing 1) overrunning [] false _ _ := Course.begin.wait (.ofMillis 1000)
  have htold := (hwaits.go.wait (.ofMillis 500)).told
  have hover := (htold.wait (.ofMillis 1000)).go
  exact ⟨_, _, _, _, htold, hover.go, by decide +kernel, by decide +kernel⟩

/-- So a round may begin after the stop. -/
theorem round_after_stop :
    ¬ ∀ before after l r,
      Course 1 (.probing 1) overrunning (before ++ .told :: after) true l r →
        ∀ look, .round look ∉ after := by
  intro hnone
  obtain ⟨-, l', -, r', -, hcourse, -⟩ := course_overrunning
  exact hnone [.round first] _ l' r' hcourse _ (List.mem_singleton_self _)

/-- The tick that was due after two seconds is taken half a second later. -/
theorem round_after_stop_iff_overrunning :
    ∃ l r, Course 1 (.probing 1) overrunning [.round first, .told, .round overdue] true l r ∧
      ∃ (before : List Look) (after : List Event),
        [.round first, .told, .round overdue] = before.map Event.round ++ .told :: after ∧
        (∀ look, .round look ∈ after → look.tick ≤ look.time ∧ look.preferred = .tick) ∧
        (after = [] ∨ ∃ look rest, (after = .round look :: rest ∨ after = [.stopped look]) ∧
          look.tick = .ofMillis 1000 + before.length * .ofMillis 1000 ∧
          ((∃ look', .round look' ∈ after) ↔ look.tick ≤ look.time ∧ look.preferred = .tick)) := by
  obtain ⟨-, l', -, r', -, hcourse, -⟩ := course_overrunning
  exact ⟨l', r', hcourse, round_after_stop_iff hcourse⟩

end LoopRun

end PriceRelay
