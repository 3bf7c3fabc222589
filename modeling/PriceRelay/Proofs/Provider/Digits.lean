import PriceRelay.Proofs.Provider.Aggregator
import PriceRelay.Proofs.Provider.RoundForm
/-!
# When a contract is asked for its digits

A client that reads one contract after another asks each for the digits of its answers until it is
told them once, and never again. What a request is answered with is not known before it is sent, so
the requests are noted as they go over the channel, and what is said of a round is said of what was
noted before it.

* `DecimalsMemory.askAll` reads some contracts and notes what was asked,
* `RoundSeen.told?` are the digits that a contract told meanwhile,
* `DecimalsMemory.Remembers` says that what is remembered is what was told,
* `DecimalsMemory.asked_until_told` says when the digits are asked for, and which a round is given.
-/

namespace PriceRelay

open AggregatorReading (bytes)

/-- A call to a contract, and the reply to it. -/
abbrev ContractExchange := (AggregatorCall × String) × Except RpcFault Json

/-- The digits that a reply tells. -/
def digitsOf? (reply : Except RpcFault Json) : Option UInt8 :=
  ((bytes reply).bind decodeDecimals).toOption

/-- What was seen of the reading of a round. -/
structure RoundSeen where
  /-- the address, as it was given -/
  contract : String
  /-- the calls that were made, and the replies to them -/
  exchanged : List ContractExchange
  /-- the round, or why there is none -/
  outcome : Except Fault Round

namespace RoundSeen

/-- The address in small letters, since their case does not matter. -/
def key (x : RoundSeen) : String := Text.asciiLower x.contract

/-- The digits that the contract told. -/
def told? (x : RoundSeen) : Option UInt8 :=
  x.exchanged.findSome? fun e => if e.1.1 = .decimals then digitsOf? e.2 else none

/-- The outcome is what the bytes hold, and a round has so many digits. -/
def Carries (x : RoundSeen) (data : List UInt8) (d : UInt8) : Prop :=
  x.outcome = Round.decode data d ∧ ∀ r, x.outcome = .ok r → r.decimals = d

/-- A round was read as it should be after others: `round` is the reply to the call for it, `digits`
the reply to the call for the digits, if there was one. -/
structure Regular (before : List RoundSeen) (x : RoundSeen) (round : Except RpcFault Json)
    (digits : Option (Except RpcFault Json)) : Prop where
  /-- the contract is called for the round, and then perhaps for the digits -/
  exchanged : x.exchanged = ((.latestRound, x.contract), round) ::
    digits.toList.map fun reply => ((.decimals, x.contract), reply)
  /-- it is called for the digits exactly if there are bytes of a round, and it has told none yet -/
  asked_iff : digits.isSome = true ↔
    (∃ data, bytes round = .ok data) ∧ ∀ y ∈ before, y.key = x.key → y.told? = none
  /-- where there are no bytes of a round, their fault is the outcome -/
  failed : ∀ e, bytes round = .error e → x.outcome = .error e
  /-- what has been told is what the round is given -/
  remembered : ∀ data, bytes round = .ok data → ∀ y ∈ before, y.key = x.key →
    ∀ d, y.told? = some d → x.Carries data d
  /-- so is what is told now -/
  told : ∀ data, bytes round = .ok data → ∀ reply ∈ digits, ∀ d, digitsOf? reply = some d →
    x.Carries data d
  /-- eight digits are assumed if none are told -/
  assumed : ∀ data, bytes round = .ok data → ∀ reply ∈ digits, digitsOf? reply = none →
    x.Carries data 8

end RoundSeen

namespace DecimalsMemory

variable {σ : Type}

/-- The channel, where what goes over it is noted. -/
def noted (calls : Calls σ) : Calls (σ × List ContractExchange) := fun request s =>
  let (reply, t) := calls request s.1
  (reply, t, s.2 ++ [(request, reply)])

/-- Read a round, and see what is asked for it. -/
def ask (m : DecimalsMemory) (calls : Calls σ) (contract : String) (s : σ) :
    RoundSeen × DecimalsMemory × σ :=
  let (outcome, m', t) := readRound calls m contract s
  (⟨contract, (readRound (noted calls) m contract (s, [])).2.2.2, outcome⟩, m', t)

/-- Read some rounds, one after another, each of a contract over a channel. -/
def askAll (m : DecimalsMemory) : List (Calls σ × String) → σ → List RoundSeen
  | [], _ => []
  | (calls, contract) :: rest, s =>
    let (x, m', t) := m.ask calls contract s
    x :: m'.askAll rest t

/-- What is remembered is what was told. -/
def Remembers (m : DecimalsMemory) (seen : List RoundSeen) : Prop :=
  ∀ key d, m.get? key = some d ↔ ∃ y ∈ seen, y.key = key ∧ y.told? = some d

/-! ### One round -/

theorem noted_eq (calls : Calls σ) (request : AggregatorCall × String) (s : σ)
    (notes : List ContractExchange) :
    noted calls request (s, notes) =
      ((calls request s).1, (calls request s).2, notes ++ [(request, (calls request s).1)]) :=
  rfl

theorem call_eq (calls : Calls σ) (c : AggregatorCall) (contract : String) (s : σ) :
    call calls c contract s =
      (bytes (calls (c, contract) s).1, (calls (c, contract) s).2) := by
  rw [call]
  split <;> next h => rw [h]; rfl

section

variable {m : DecimalsMemory} {calls : Calls σ} {contract : String} {s t u : σ}
  {round digits : Except RpcFault Json}

theorem ask_of_error {e : Fault} (hround : calls (.latestRound, contract) s = (round, t))
    (he : bytes round = .error e) :
    m.ask calls contract s = (⟨contract, [((.latestRound, contract), round)], .error e⟩, m, t) := by
  simp only [ask, readRound, call_eq, noted_eq, hround, he, List.nil_append]

theorem ask_of_remembered {data : List UInt8} {d : UInt8}
    (hround : calls (.latestRound, contract) s = (round, t)) (hdata : bytes round = .ok data)
    (hm : m.get? (Text.asciiLower contract) = some d) :
    m.ask calls contract s =
      (⟨contract, [((.latestRound, contract), round)], Round.decode data d⟩, m, t) := by
  simp only [ask, readRound, DecimalsMemory.digits, call_eq, noted_eq, hround, hdata, hm,
    List.nil_append]

theorem ask_of_unknown {data : List UInt8}
    (hround : calls (.latestRound, contract) s = (round, t)) (hdata : bytes round = .ok data)
    (hm : m.get? (Text.asciiLower contract) = none)
    (hdigits : calls (.decimals, contract) t = (digits, u)) :
    m.ask calls contract s =
      (⟨contract, [((.latestRound, contract), round), ((.decimals, contract), digits)],
          Round.decode data ((digitsOf? digits).getD Round.assumedDecimals)⟩,
        (digitsOf? digits).elim m fun d => m.insert (Text.asciiLower contract) d, u) := by
  simp only [ask, readRound, DecimalsMemory.digits, call_eq, noted_eq, hround, hdata, hm,
    hdigits, digitsOf?, List.nil_append, List.singleton_append]
  cases (bytes digits).bind decodeDecimals <;> rfl

end

/-! ### What is remembered -/

/-- Whoever is called for the round alone tells no digits. -/
theorem told?_of_round (contract : String) (round : Except RpcFault Json)
    (outcome : Except Fault Round) :
    RoundSeen.told? ⟨contract, [((.latestRound, contract), round)], outcome⟩ = none :=
  rfl

theorem told?_of_digits (contract : String) (round digits : Except RpcFault Json)
    (outcome : Except Fault Round) :
    RoundSeen.told? ⟨contract, [((.latestRound, contract), round), ((.decimals, contract), digits)],
      outcome⟩ = digitsOf? digits := by
  rw [RoundSeen.told?, List.findSome?_cons, if_neg (by exact nofun), List.findSome?_singleton,
    if_pos rfl]

theorem remembers_empty : Remembers .empty [] := by
  intro key d
  simp

namespace Remembers

variable {m : DecimalsMemory} {before : List RoundSeen} {x : RoundSeen}

theorem eq_none_iff (h : m.Remembers before) (key : String) :
    m.get? key = none ↔ ∀ y ∈ before, y.key = key → y.told? = none := by
  rw [Option.eq_none_iff_forall_ne_some]
  constructor
  · intro hm y hy hkey
    rw [Option.eq_none_iff_forall_ne_some]
    exact fun d hd => hm d ((h key d).mpr ⟨y, hy, hkey, hd⟩)
  · intro hbefore d hd
    obtain ⟨y, hy, hkey, htold⟩ := (h key d).mp hd
    rw [hbefore y hy hkey] at htold
    cases htold

theorem concat_of_none (h : m.Remembers before) (hx : x.told? = none) :
    m.Remembers (before ++ [x]) := by
  intro key d
  rw [h key d]
  simp [or_and_right, exists_or, hx]

theorem concat_of_some (h : m.Remembers before) {k : String} (hm : m.get? k = none) {d : UInt8}
    (hx : x.told? = some d) (hk : x.key = k) : Remembers (m.insert k d) (before ++ [x]) := by
  obtain rfl := hk
  intro key d'
  rw [Table.get?_insert]
  split
  · next hkey =>
    -- nothing was told of this address before
    have hbefore : ¬ ∃ y ∈ before, y.key = key ∧ y.told? = some d' := by
      rw [← h key d', ← hkey, hm]
      exact (Option.some_ne_none d').symm
    simp [or_and_right, exists_or, hbefore, hkey, hx]
  · next hkey =>
    rw [h key d']
    simp [or_and_right, exists_or, hkey]

/-- What one more contract tells is remembered with the rest. -/
theorem ask (h : m.Remembers before) (calls : Calls σ) (contract : String) (s : σ) :
    (m.ask calls contract s).2.1.Remembers (before ++ [(m.ask calls contract s).1]) := by
  obtain ⟨⟨round, t⟩, hround⟩ : ∃ p, calls (.latestRound, contract) s = p := ⟨_, rfl⟩
  obtain ⟨⟨digits, u⟩, hdigits⟩ : ∃ p, calls (.decimals, contract) t = p := ⟨_, rfl⟩
  cases hdata : bytes round with
  | error e =>
    rw [ask_of_error hround hdata]
    exact h.concat_of_none (told?_of_round ..)
  | ok data =>
    cases hm : m.get? (Text.asciiLower contract) with
    | some d =>
      rw [ask_of_remembered hround hdata hm]
      exact h.concat_of_none (told?_of_round ..)
    | none =>
      rw [ask_of_unknown hround hdata hm hdigits]
      have htold := told?_of_digits contract round digits
        (Round.decode data ((digitsOf? digits).getD Round.assumedDecimals))
      cases hd : digitsOf? digits with
      | none =>
        rw [hd] at htold
        exact h.concat_of_none htold
      | some d =>
        rw [hd] at htold
        exact h.concat_of_some hm htold rfl

end Remembers

end DecimalsMemory

/-! ### What is asked for -/

namespace RoundSeen

variable {before : List RoundSeen} {x : RoundSeen} {round : Except RpcFault Json}

theorem carries_of_decode {data : List UInt8} {d : UInt8} (h : x.outcome = Round.decode data d) :
    x.Carries data d :=
  ⟨h, fun _ hr => (Round.decode_eq_ok_iff.mp (h.symm.trans hr)).2.symm⟩

theorem regular_of_error {e : Fault} (he : bytes round = .error e)
    (hexchanged : x.exchanged = [((.latestRound, x.contract), round)])
    (houtcome : x.outcome = .error e) : x.Regular before round none where
  exchanged := hexchanged
  asked_iff := ⟨nofun, fun ⟨⟨data, hdata⟩, _⟩ => by rw [he] at hdata; cases hdata⟩
  failed e' he' := by rw [houtcome, ← Except.error.inj (he.symm.trans he')]
  remembered data hdata := by rw [he] at hdata; cases hdata
  told := nofun
  assumed := nofun

theorem regular_of_told {data : List UInt8} (hdata : bytes round = .ok data)
    (hexchanged : x.exchanged = [((.latestRound, x.contract), round)])
    (htold : ∃ y ∈ before, y.key = x.key ∧ y.told? ≠ none)
    (houtcome : ∀ y ∈ before, y.key = x.key → ∀ d, y.told? = some d →
      x.outcome = Round.decode data d) : x.Regular before round none where
  exchanged := hexchanged
  asked_iff := by
    obtain ⟨y, hy, hkey, hsome⟩ := htold
    exact ⟨nofun, fun ⟨_, hnone⟩ => absurd (hnone y hy hkey) hsome⟩
  failed e he := by rw [hdata] at he; cases he
  remembered data' hdata' y hy hkey d hd := by
    cases hdata.symm.trans hdata'
    exact carries_of_decode (houtcome y hy hkey d hd)
  told := nofun
  assumed := nofun

theorem regular_of_untold {data : List UInt8} (hdata : bytes round = .ok data)
    {digits : Except RpcFault Json}
    (hexchanged : x.exchanged =
      [((.latestRound, x.contract), round), ((.decimals, x.contract), digits)])
    (hnone : ∀ y ∈ before, y.key = x.key → y.told? = none)
    (houtcome : x.outcome = Round.decode data ((digitsOf? digits).getD 8)) :
    x.Regular before round (some digits) where
  exchanged := hexchanged
  asked_iff := ⟨fun _ => ⟨⟨data, hdata⟩, hnone⟩, fun _ => rfl⟩
  failed e he := by rw [hdata] at he; cases he
  remembered _ _ y hy hkey d hd := by rw [hnone y hy hkey] at hd; cases hd
  told data' hdata' reply hreply d hd := by
    cases hdata.symm.trans hdata'
    cases hreply
    rw [hd] at houtcome
    exact carries_of_decode houtcome
  assumed data' hdata' reply hreply hd := by
    cases hdata.symm.trans hdata'
    cases hreply
    rw [hd] at houtcome
    exact carries_of_decode houtcome

end RoundSeen

namespace DecimalsMemory

/-- One more round is read as it should be, by a client that remembers what was told. -/
theorem Remembers.regular_ask {m : DecimalsMemory} {before : List RoundSeen}
    (h : m.Remembers before) (calls : Calls σ) (contract : String) (s : σ) :
    ∃ round digits, (m.ask calls contract s).1.Regular before round digits := by
  obtain ⟨⟨round, t⟩, hround⟩ : ∃ p, calls (.latestRound, contract) s = p := ⟨_, rfl⟩
  obtain ⟨⟨digits, u⟩, hdigits⟩ : ∃ p, calls (.decimals, contract) t = p := ⟨_, rfl⟩
  cases hdata : bytes round with
  | error e =>
    rw [ask_of_error hround hdata]
    exact ⟨round, none, RoundSeen.regular_of_error hdata rfl rfl⟩
  | ok data =>
    cases hm : m.get? (Text.asciiLower contract) with
    | some d =>
      rw [ask_of_remembered hround hdata hm]
      obtain ⟨y, hy, hkey, htold⟩ := (h _ d).mp hm
      refine ⟨round, none, RoundSeen.regular_of_told hdata rfl
        ⟨y, hy, hkey, by rw [htold]; exact nofun⟩ fun z hz hzkey d' hd' => ?_⟩
      -- all that was told of an address is the same
      have hd : m.get? (Text.asciiLower contract) = some d' := (h _ d').mpr ⟨z, hz, hzkey, hd'⟩
      cases hm.symm.trans hd
      rfl
    | none =>
      rw [ask_of_unknown hround hdata hm hdigits]
      exact ⟨round, some digits,
        RoundSeen.regular_of_untold hdata rfl ((h.eq_none_iff _).mp hm) rfl⟩

/-! ### Runs -/

theorem askAll_cons {m m' : DecimalsMemory} {calls : Calls σ} {contract : String} {s t : σ}
    {x : RoundSeen} (h : m.ask calls contract s = (x, m', t)) (rest : List (Calls σ × String)) :
    m.askAll ((calls, contract) :: rest) s = x :: m'.askAll rest t := by
  rw [askAll, h]

theorem Remembers.regular_askAll {m : DecimalsMemory} {earlier : List RoundSeen}
    (h : m.Remembers earlier) {requests : List (Calls σ × String)} {s : σ}
    {before after : List RoundSeen} {x : RoundSeen}
    (hrun : m.askAll requests s = before ++ x :: after) :
    ∃ round digits, x.Regular (earlier ++ before) round digits := by
  induction requests generalizing m earlier s before with
  | nil => cases before <;> cases hrun
  | cons request requests ih =>
    obtain ⟨calls, contract⟩ := request
    rw [askAll_cons rfl] at hrun
    cases before with
    | nil =>
      obtain ⟨hx, -⟩ := List.cons.inj hrun
      rw [← hx, List.append_nil]
      exact h.regular_ask calls contract s
    | cons y before =>
      obtain ⟨hy, hrest⟩ := List.cons.inj hrun
      rw [List.append_cons, ← hy]
      exact ih (h.ask calls contract s) hrest

/-- **Digits are asked for until they are told.** Whatever contracts a new client reads one after
another, and whatever comes back, each contract is called for the digits with exactly those rounds
that come back as bytes, until the digits are told; from then on every round is given them. While
they are not told, eight are assumed. -/
theorem asked_until_told {requests : List (Calls σ × String)} {s : σ}
    {before after : List RoundSeen} {x : RoundSeen}
    (hrun : askAll .empty requests s = before ++ x :: after) :
    ∃ round digits, x.Regular before round digits :=
  remembers_empty.regular_askAll hrun

/-- A contract whose rounds are zero, and what it replies to the call for the digits. -/
def zeroCalls (digits : Except RpcFault Json) : Calls Unit := fun request s =>
  match request.1 with
  | .latestRound => (.ok zeroRound, s)
  | .decimals => (digits, s)

theorem digitsOf?_eighteen : digitsOf? (.ok (digitsWord ['1', '2'])) = some 18 := by
  have hword : decodeResult (digitsWord ['1', '2']) = .ok (List.replicate 31 0 ++ [18]) :=
    decodeResult_ofList (by rfl) (by rfl)
  have hbytes : bytes (.ok (digitsWord ['1', '2'])) = .ok (List.replicate 31 0 ++ [18]) := hword
  rw [digitsOf?, hbytes]
  rfl

/-- A contract whose digits could not be had at first is asked again, under whatever letters, and
then no more. -/
theorem askAll_zeroCalls (fault : RpcFault) (last : Except RpcFault Json) :
    askAll .empty [(zeroCalls (.error fault), "0xA"),
        (zeroCalls (.ok (digitsWord ['1', '2'])), "0xa"), (zeroCalls last, "0xA")] () =
      [⟨"0xA", [((.latestRound, "0xA"), .ok zeroRound), ((.decimals, "0xA"), .error fault)],
          .ok ⟨0, 0, 0, 0, 0, 8⟩⟩,
        ⟨"0xa", [((.latestRound, "0xa"), .ok zeroRound),
          ((.decimals, "0xa"), .ok (digitsWord ['1', '2']))], .ok ⟨0, 0, 0, 0, 0, 18⟩⟩,
        ⟨"0xA", [((.latestRound, "0xA"), .ok zeroRound)], .ok ⟨0, 0, 0, 0, 0, 18⟩⟩] := by
  have hround : bytes (.ok zeroRound) = .ok (List.replicate 160 0) := decodeResult_zeroRound
  have hfault : digitsOf? (.error fault) = none := rfl
  have htold : (Table.empty.insert (Text.asciiLower "0xa") (18 : UInt8)).get?
      (Text.asciiLower "0xA") = some 18 := by decide
  rw [askAll_cons (ask_of_unknown rfl hround rfl rfl), hfault, Option.elim_none,
    askAll_cons (ask_of_unknown rfl hround rfl rfl), digitsOf?_eighteen, Option.elim_some,
    askAll_cons (ask_of_remembered rfl hround htold)]
  rw [askAll, ← decode_zeroRound, ← decode_zeroRound]
  rfl

theorem asked_until_told_after_fault :
    ∃ round digits, RoundSeen.Regular
      [⟨"0xA", [((.latestRound, "0xA"), .ok zeroRound), ((.decimals, "0xA"), .error (.http ""))],
          .ok ⟨0, 0, 0, 0, 0, 8⟩⟩,
        ⟨"0xa", [((.latestRound, "0xa"), .ok zeroRound),
          ((.decimals, "0xa"), .ok (digitsWord ['1', '2']))], .ok ⟨0, 0, 0, 0, 0, 18⟩⟩]
      ⟨"0xA", [((.latestRound, "0xA"), .ok zeroRound)], .ok ⟨0, 0, 0, 0, 0, 18⟩⟩ round digits :=
  asked_until_told (askAll_zeroCalls (.http "") (.error (.http "")))

end DecimalsMemory

end PriceRelay
