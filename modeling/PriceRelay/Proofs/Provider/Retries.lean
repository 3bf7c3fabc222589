import Mathlib.Algebra.Group.Nat.Defs
import Mathlib.Logic.Function.Iterate
import PriceRelay.Provider.Quotes
/-!
# How often quotes are asked for

A request for quotes that fails is sent again, and it is the same request each time. So all that
matters of the other side is what it replies to the first request, to the second one, and so on. The
last request is the first one that succeeds, or the last that the retries allow. Its reply makes the
answer, and the replies before it have no part in that.

* `HttpReply.Succeeds` says which replies end the asking,
* `QuoteService.replyTo` is the reply to a request after so many others, `QuoteService.IsLast` says
  which request is the last one,
* `QuoteService.send_eq` is what comes of sending, by induction on the retries,
* `QuoteService.asked_until_success` is what is sent, how long the pauses are, and what the answer
  is.
-/

namespace PriceRelay

/-- The status of a reply tells of success. -/
def HttpReply.Succeeds : HttpReply → Prop
  | .answered status _ | .brokenOff status _ => 200 ≤ status ∧ status < 300
  | .failed _ => False

theorem HttpReply.isSuccess_iff {status : Nat} :
    HttpReply.isSuccess status = true ↔ 200 ≤ status ∧ status < 300 := by
  rw [HttpReply.isSuccess, Bool.and_eq_true, decide_eq_true_iff, decide_eq_true_iff]

namespace QuoteService

variable {σ : Type}

/-! ### The other side -/

/-- The state of the other side after `k` requests. -/
def after (get : Channel σ String HttpReply) (target : String) (s : σ) (k : Nat) : σ :=
  Nat.iterate (fun s => (get target s).2) k s

/-- What the other side replies to a request after `k` others. -/
def replyTo (get : Channel σ String HttpReply) (target : String) (s : σ) (k : Nat) : HttpReply :=
  (get target (after get target s k)).1

/-- The channel, where what goes over it is noted. -/
def noted (get : Channel σ String HttpReply) :
    Channel (σ × List (String × HttpReply)) String HttpReply := fun target s =>
  ((get target s.1).1, (get target s.1).2, s.2 ++ [(target, (get target s.1).1)])

/-- Request `k`, counted from zero, is the last one: none before it succeeds, and it succeeds itself
or is the last retry. -/
structure IsLast (retries : Nat) (replies : Nat → HttpReply) (k : Nat) : Prop where
  /-- there are not more retries than allowed -/
  le_retries : k ≤ retries
  /-- no request before it succeeds -/
  failed : ∀ i < k, ¬ (replies i).Succeeds
  /-- it succeeds, or no retry is left -/
  ends : (replies k).Succeeds ∨ k = retries

/-- What is made of the reply to the last request. -/
def answer (unread : Wording) (ids : List String) : HttpReply → Except Fault (List Quote)
  | .answered status body =>
    if HttpReply.isSuccess status then QuoteReply.read unread ids (Text.Utf8.decode body)
    else .error (.ofRemote (statusText status (Text.Utf8.decode body)))
  | .brokenOff status detail =>
    if HttpReply.isSuccess status then
      .error (.ofRemote ("failed to read Hermes response body: " ++ detail))
    else .error (.ofRemote (statusText status ""))
  | .failed detail => .error (.ofRemote ("HTTP request failed: " ++ detail))

variable {get : Channel σ String HttpReply} {target : String} {s s' : σ}

theorem after_succ (get : Channel σ String HttpReply) (target : String) (s : σ) (k : Nat) :
    after get target s (k + 1) = (get target (after get target s k)).2 :=
  Function.iterate_succ_apply' _ k s

/-- Taking notes changes no reply. What is noted is one request after another, and always the
same. -/
theorem after_noted (get : Channel σ String HttpReply) (target : String) (s : σ) (k : Nat) :
    after (noted get) target (s, []) k =
      (after get target s k, (List.range k).map fun i => (target, replyTo get target s i)) := by
  induction k with
  | zero => rfl
  | succ k ih =>
    rw [after_succ, ih, after_succ, List.range_succ, List.map_append]
    rfl

theorem replyTo_noted (get : Channel σ String HttpReply) (target : String) (s : σ) :
    replyTo (noted get) target (s, []) = replyTo get target s := by
  funext k
  rw [replyTo, after_noted]
  rfl

/-! ### Sending -/

theorem failureText_eq_none_iff {reply : HttpReply} :
    failureText reply = none ↔ reply.Succeeds := by
  cases reply with
  | failed detail => exact iff_of_false (Option.some_ne_none _) id
  | answered status body =>
    rw [failureText, HttpReply.Succeeds, ← HttpReply.isSuccess_iff]
    split <;> simp [*]
  | brokenOff status detail =>
    rw [failureText, HttpReply.Succeeds, ← HttpReply.isSuccess_iff]
    split <;> simp [*]

/-- What comes of a request that is not sent again. -/
def outcome (reply : HttpReply) : Except String (List UInt8) :=
  match failureText reply, reply with
  | some text, _ => .error text
  | none, .answered _ body => .ok body
  | none, .brokenOff _ detail => .error ("failed to read Hermes response body: " ++ detail)
  | none, .failed detail => .error detail

/-- A request that succeeds is not sent again. -/
theorem send_of_success {reply : HttpReply} (hget : get target s = (reply, s'))
    (hsuccess : failureText reply = none) (retries pause : Nat) :
    send get target retries pause s = (outcome reply, [], s') := by
  rw [send, hget]
  cases reply <;> simp only [hsuccess, outcome]

/-- Nor is one for which there is no retry left. -/
theorem send_zero {reply : HttpReply} (hget : get target s = (reply, s')) (pause : Nat) :
    send get target 0 pause s = (outcome reply, [], s') := by
  cases hfailure : failureText reply with
  | none => exact send_of_success hget hfailure 0 pause
  | some text =>
    rw [send, hget]
    simp only [hfailure, outcome]

/-- Any other one is sent again after a pause, which is doubled. -/
theorem send_succ {reply : HttpReply} {text : String} (hget : get target s = (reply, s'))
    (hfailure : failureText reply = some text) (retries pause : Nat) :
    send get target (retries + 1) pause s =
      ((send get target retries (pause * 2) s').1,
        pause :: (send get target retries (pause * 2) s').2.1,
        (send get target retries (pause * 2) s').2.2) := by
  rw [send, hget]
  simp only [hfailure]

/-- There is one last request. -/
theorem IsLast.unique {retries : Nat} {replies : Nat → HttpReply} {j k : Nat}
    (hj : IsLast retries replies j) (hk : IsLast retries replies k) : j = k := by
  rcases Nat.lt_trichotomy j k with hlt | heq | hlt
  · rcases hj.ends with hsuccess | hend
    · exact absurd hsuccess (hk.failed j hlt)
    · exact absurd (hend ▸ hk.le_retries) (Nat.not_le.mpr hlt)
  · exact heq
  · rcases hk.ends with hsuccess | hend
    · exact absurd hsuccess (hj.failed k hlt)
    · exact absurd (hend ▸ hj.le_retries) (Nat.not_le.mpr hlt)

theorem isLast_zero_of_success {replies : Nat → HttpReply} (h : (replies 0).Succeeds)
    (retries : Nat) : IsLast retries replies 0 :=
  ⟨Nat.zero_le _, fun i hi => absurd hi (Nat.not_lt_zero i), .inl h⟩

theorem isLast_zero (replies : Nat → HttpReply) : IsLast 0 replies 0 :=
  ⟨Nat.le_refl _, fun i hi => absurd hi (Nat.not_lt_zero i), .inr rfl⟩

/-- A request that fails comes before the last one. -/
theorem IsLast.succ {replies : Nat → HttpReply} {retries k : Nat} (hfirst : ¬ (replies 0).Succeeds)
    (h : IsLast retries (fun i => replies (i + 1)) k) : IsLast (retries + 1) replies (k + 1) where
  le_retries := Nat.succ_le_succ h.le_retries
  failed i hi := by
    cases i with
    | zero => exact hfirst
    | succ i => exact h.failed i (Nat.lt_of_succ_lt_succ hi)
  ends := h.ends.imp_right (congrArg Nat.succ)

/-- **What comes of sending.** With each retry the pause is doubled once more. -/
theorem send_eq (get : Channel σ String HttpReply) (target : String) (retries pause : Nat) (s : σ) :
    ∃ k, IsLast retries (replyTo get target s) k ∧
      send get target retries pause s =
        (outcome (replyTo get target s k), (List.range k).map fun i => pause * 2 ^ i,
          after get target s (k + 1)) := by
  induction retries generalizing pause s with
  | zero => exact ⟨0, isLast_zero _, send_zero rfl pause⟩
  | succ retries ih =>
    cases hfailure : failureText (replyTo get target s 0) with
    | none =>
      have hsuccess := failureText_eq_none_iff.mp hfailure
      exact ⟨0, isLast_zero_of_success hsuccess _, send_of_success rfl hfailure _ pause⟩
    | some text =>
      have hfails : ¬ (replyTo get target s 0).Succeeds := by
        rw [← failureText_eq_none_iff, hfailure]
        exact Option.some_ne_none text
      obtain ⟨k, hlast, hsend⟩ := ih (pause * 2) (get target s).2
      refine ⟨k + 1, hlast.succ hfails, ?_⟩
      have hpauses : (pause :: (List.range k).map fun i => pause * 2 * 2 ^ i) =
          (List.range (k + 1)).map fun i => pause * 2 ^ i := by
        simp [List.range_succ_eq_map, pow_succ', Nat.mul_assoc]
      rw [send_succ rfl hfailure, hsend, hpauses]
      rfl

/-! ### The answer -/

theorem answer_eq (unread : Wording) (ids : List String) (reply : HttpReply) :
    answer unread ids reply = match outcome reply with
      | .error text => .error (.ofRemote text)
      | .ok body => QuoteReply.read unread ids (Text.Utf8.decode body) := by
  cases reply with
  | failed detail => rfl
  | answered status body =>
    simp only [answer, outcome, failureText]
    split <;> rfl
  | brokenOff status detail =>
    simp only [answer, outcome, failureText]
    split <;> rfl

/-- **How often quotes are asked for.** Whatever the other side replies, the same request is sent
until it succeeds or there is no retry left, with pauses in between of which the first takes 100
milliseconds and each later one twice as long. The answer is what the last reply says. -/
theorem asked_until_success (unread : Wording) (service : QuoteService)
    (get : Channel σ String HttpReply) {ids : List String} (hids : ids ≠ []) (s : σ) :
    let target := service.target ids
    ∃ k, IsLast service.retries.toNat (replyTo get target s) k ∧
      service.fetchLatest unread (noted get) ids (s, []) =
        (answer unread ids (replyTo get target s k),
          (List.range k).map fun i => .ofMillis (100 * 2 ^ i),
          after get target s (k + 1),
          (List.range (k + 1)).map fun i => (target, replyTo get target s i)) := by
  intro target
  obtain ⟨k, hlast, hsend⟩ := send_eq (noted get) target service.retries.toNat firstPause (s, [])
  simp only [replyTo_noted, after_noted] at hlast hsend
  refine ⟨k, hlast, ?_⟩
  have hsome : ids.isEmpty = false := List.isEmpty_eq_false_iff.mpr hids
  rw [fetchLatest, hsome, hsend, answer_eq]
  have hpauses : (List.range k).map (fun i => firstPause * 2 ^ i) =
      (List.range k).map fun i => .ofMillis (100 * 2 ^ i) :=
    List.map_congr_left fun i _ => Nat.mul_right_comm 100 1000000 (2 ^ i)
  rw [hpauses]
  cases outcome (replyTo get target s k) <;> rfl

/-- The service is overloaded at first, and then hangs up. The third request is answered, with no
feeds, and the last retry is not needed. -/
theorem asked_until_success_of_third :
    let unread : Wording := fun _ => ""
    let service : QuoteService := ⟨"http://quotes", 3⟩
    let target := service.target ["ff"]
    let replies : List HttpReply :=
      [.answered 503 [], .failed "connection closed", .answered 200 [0x7b, 0x7d]]
    let get : Channel Nat String HttpReply := fun _ i => (replies.getD i (.answered 200 []), i + 1)
    ["ff"] ≠ [] ∧ IsLast 3 (replyTo get target 0) 2 ∧
      service.fetchLatest unread (noted get) ["ff"] (0, []) =
        (.ok [], [.ofMillis 100, .ofMillis 200], 3, replies.map fun reply => (target, reply)) := by
  intro unread service target replies get
  have hids : ["ff"] ≠ [] := List.cons_ne_nil _ _
  obtain ⟨k, hlast, hfetch⟩ := asked_until_success unread service get hids 0
  have hthird : IsLast 3 (replyTo get target 0) 2 := by
    refine ⟨by decide, fun i hi => ?_, .inl ⟨by decide, by decide⟩⟩
    cases i with
    | zero => exact fun hsuccess => absurd hsuccess.2 (by decide)
    | succ i =>
      obtain rfl : i = 0 := by omega
      exact id
  obtain rfl := hlast.unique hthird
  have hanswer : answer unread ["ff"] (.answered 200 [0x7b, 0x7d]) = .ok [] := by rfl
  exact ⟨hids, hthird, hfetch.trans (congrArg (fun a => (a, _)) hanswer)⟩

end QuoteService

end PriceRelay
