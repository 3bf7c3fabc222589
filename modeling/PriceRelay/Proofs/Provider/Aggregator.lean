import PriceRelay.Proofs.Text.Hex
import PriceRelay.Provider.Aggregator
/-!
# Rounds of several networks

One client reads the aggregators of all networks, and remembers the digits of a contract by its
address alone. So a round is given the digits that were first told of its address, on whatever
network.

* `AggregatorReading` is one reading with the replies it would get, `DecimalsMemory.readAll` makes
  some of them with one client,
* `DecimalsMemory.told` are the digits first told of an address, which is what is remembered,
* `DecimalsMemory.rounds_eq_iff` says when two runs that look alike on a network read the same
  rounds there.
-/

namespace PriceRelay

/-- One reading of a contract, and how the other side replies to its calls. -/
structure AggregatorReading where
  /-- the network it is read on -/
  network : NetworkId
  /-- the address, as it is given -/
  contract : String
  /-- the reply to the call for the round -/
  round : Except RpcFault Json
  /-- the reply to the call for the digits, should it be made -/
  digits : Except RpcFault Json

/-- A call and the reply to it. -/
abbrev AggregatorExchange := AggregatorCall × Except RpcFault Json

/-- What became of a reading. -/
structure AggregatorRead where
  /-- the network -/
  network : NetworkId
  /-- the address -/
  contract : String
  /-- the calls made and the replies to them -/
  exchanged : List AggregatorExchange
  /-- the round, or why there is none -/
  outcome : Except Fault Round

namespace AggregatorReading

/-- The reply to a call. -/
def reply (r : AggregatorReading) : AggregatorCall → Except RpcFault Json
  | .latestRound => r.round
  | .decimals => r.digits

/-- The other side of a reading, which notes what is exchanged. -/
def channel (r : AggregatorReading) : DecimalsMemory.Calls (List AggregatorExchange) :=
  fun request exchanged => (r.reply request.1, exchanged ++ [(request.1, r.reply request.1)])

/-- The address in small letters, by which digits are remembered. -/
def key (r : AggregatorReading) : String := Text.asciiLower r.contract

/-- The bytes that a reply holds. -/
def bytes : Except RpcFault Json → Except Fault (List UInt8)
  | .error e => .error e.toFault
  | .ok result => decodeResult result

/-- The digits that the contract tells, if the call for them is made. -/
def tells? (r : AggregatorReading) : Option UInt8 :=
  match bytes r.round with
  | .error _ => none
  | .ok _ => ((bytes r.digits).bind decodeDecimals).toOption

/-- The round of a reply, read with so many digits. -/
def outcome (reply : Except RpcFault Json) (digits : UInt8) : Except Fault Round :=
  (bytes reply).bind fun data => Round.decode data digits

/-- Whether a reply holds a round; how many digits it has does not matter to that. -/
def holdsRound (reply : Except RpcFault Json) : Bool := (outcome reply 0).toOption.isSome

end AggregatorReading

/-- A result without an opening is read digit by digit. -/
theorem decodeResult_ofList {cs : List Char} {data : List UInt8}
    (hopening : "0x".toList.isPrefixOf? cs = none)
    (hdata : Text.Hex.decodeBytes (cs.flatMap String.utf8EncodeChar) = .ok data) :
    decodeResult (.str (String.ofList cs)) = .ok data := by
  simp only [decodeResult, Json.str, Json.text?, Text.dropStart?, String.toList_ofList, hopening,
    Option.map_none, Option.getD_none, Text.Hex.decode_ofList, hdata]

theorem Round.decode_eq_map (data : List UInt8) (d : UInt8) :
    Round.decode data d = (Round.decode data 0).map fun r => { r with decimals := d } := by
  rw [Round.decode, Round.decode]
  cases wordAt data 0 with
  | error e => rfl
  | ok roundId =>
    cases wordAt data 1 with
    | error e => rfl
    | ok answer =>
      cases wordAt data 2 with
      | error e => rfl
      | ok startedAt =>
        cases wordAt data 3 with
        | error e => rfl
        | ok updatedAt => cases wordAt data 4 <;> rfl

namespace AggregatorReading

/-- Two outcomes of one reply are the same round if they have the same digits, and only then. -/
theorem outcome_eq_iff (reply : Except RpcFault Json) (d d' : UInt8) :
    outcome reply d = outcome reply d' ↔ (holdsRound reply = true → d = d') := by
  rw [holdsRound, outcome, outcome, outcome]
  cases bytes reply with
  | error e => exact ⟨fun _ h => (by cases h), fun _ => rfl⟩
  | ok data =>
    change Round.decode data d = Round.decode data d' ↔
      ((Round.decode data 0).toOption.isSome = true → d = d')
    rw [Round.decode_eq_map data d, Round.decode_eq_map data d']
    cases Round.decode data 0 with
    | error e => exact ⟨fun _ h => (by cases h), fun _ => rfl⟩
    | ok round =>
      constructor
      · intro h _
        exact congrArg Round.decimals (Except.ok.inj h)
      · intro h
        rw [h rfl]

end AggregatorReading

namespace DecimalsMemory

/-- What one reading does: what became of it, and what is remembered after it. -/
def read (m : DecimalsMemory) (r : AggregatorReading) : AggregatorRead × DecimalsMemory :=
  let (outcome, m', exchanged) := readRound r.channel m r.contract []
  (⟨r.network, r.contract, exchanged, outcome⟩, m')

/-- Make some readings with one client, one after another. -/
def readAll (m : DecimalsMemory) : List AggregatorReading → List AggregatorRead
  | [] => []
  | r :: rs => (m.read r).1 :: (m.read r).2.readAll rs

/-- What becomes of the readings on a network that a new client makes. -/
def reads (n : NetworkId) (rs : List AggregatorReading) : List AggregatorRead :=
  (readAll .empty rs).filter fun x => x.network = n

/-- The calls and replies of a network. -/
def observed (n : NetworkId) (rs : List AggregatorReading) :
    List (String × List AggregatorExchange) :=
  (reads n rs).map fun x => (x.contract, x.exchanged)

/-- The rounds read on a network. -/
def rounds (n : NetworkId) (rs : List AggregatorReading) : List (Except Fault Round) :=
  (reads n rs).map AggregatorRead.outcome

/-- The digits first told of an address, on whatever network. -/
def told (key : String) (rs : List AggregatorReading) : Option UInt8 :=
  rs.findSome? fun r => if r.key = key then r.tells? else none

/-- The digits a reading is given: those told of its address by then, and else the usual number. -/
def given (before : List AggregatorReading) (r : AggregatorReading) : UInt8 :=
  (told r.key (before ++ [r])).getD Round.assumedDecimals

/-- The readings on a network that come after others: the reply to each, and the digits it is
given. -/
def givenFrom (n : NetworkId) (before : List AggregatorReading) :
    List AggregatorReading → List (Except RpcFault Json × UInt8)
  | [] => []
  | r :: rs =>
    if r.network = n then (r.round, given before r) :: givenFrom n (before ++ [r]) rs
    else givenFrom n (before ++ [r]) rs

/-- The digits that the rounds of a network are given, of those that could be read. -/
def digitsGiven (n : NetworkId) (rs : List AggregatorReading) : List UInt8 :=
  ((givenFrom n [] rs).filter fun p => AggregatorReading.holdsRound p.1).map Prod.snd

/-- Nobody else reads an address that the network reads. -/
def Unshared (n : NetworkId) (rs : List AggregatorReading) : Prop :=
  ∀ r ∈ rs, r.network ≠ n → ∀ q ∈ rs, q.network = n → r.key ≠ q.key

/-! ### One reading -/

/-- A call brings the bytes of its reply, and is noted. -/
theorem call_channel (r : AggregatorReading) (c : AggregatorCall) (contract : String)
    (exchanged : List AggregatorExchange) :
    call r.channel c contract exchanged =
      (AggregatorReading.bytes (r.reply c), exchanged ++ [(c, r.reply c)]) := by
  simp only [call, AggregatorReading.channel]
  cases r.reply c <;> rfl

/-- A reading whose round comes back without bytes is the end of it. -/
theorem read_of_error {r : AggregatorReading} {e : Fault}
    (h : AggregatorReading.bytes r.round = .error e) (m : DecimalsMemory) :
    m.read r = (⟨r.network, r.contract, [(.latestRound, r.round)], .error e⟩, m) := by
  simp only [read, readRound, call_channel, AggregatorReading.reply, h]
  rfl

/-- What is remembered of an address is not asked for. -/
theorem read_of_remembered {r : AggregatorReading} {data : List UInt8}
    (h : AggregatorReading.bytes r.round = .ok data) {m : DecimalsMemory} {d : UInt8}
    (hm : m.get? r.key = some d) :
    m.read r = (⟨r.network, r.contract, [(.latestRound, r.round)], Round.decode data d⟩, m) := by
  rw [AggregatorReading.key] at hm
  simp only [read, readRound, digits, call_channel, AggregatorReading.reply, h, hm]
  rfl

/-- What is not remembered is asked for, and remembered if it is told. -/
theorem read_of_unknown {r : AggregatorReading} {data : List UInt8}
    (h : AggregatorReading.bytes r.round = .ok data) {m : DecimalsMemory}
    (hm : m.get? r.key = none) :
    m.read r = (⟨r.network, r.contract, [(.latestRound, r.round), (.decimals, r.digits)],
        Round.decode data (r.tells?.getD Round.assumedDecimals)⟩,
      r.tells?.elim m fun d => m.insert r.key d) := by
  rw [AggregatorReading.key] at hm
  simp only [read, readRound, digits, call_channel, AggregatorReading.reply, h, hm,
    AggregatorReading.tells?, List.nil_append, List.singleton_append]
  cases (AggregatorReading.bytes r.digits).bind decodeDecimals <;> rfl

theorem told_concat (key : String) (rs : List AggregatorReading) (r : AggregatorReading) :
    told key (rs ++ [r]) = (told key rs).or (if r.key = key then r.tells? else none) := by
  rw [told, List.findSome?_append, ← told, List.findSome?_singleton]

/-- **The digits first told of an address are what is remembered.** -/
theorem get?_read (m : DecimalsMemory) (r : AggregatorReading) (key : String) :
    (m.read r).2.get? key = (m.get? key).or (if r.key = key then r.tells? else none) := by
  cases hb : AggregatorReading.bytes r.round with
  | error e =>
    have hnone : r.tells? = none := by rw [AggregatorReading.tells?, hb]
    rw [read_of_error hb, hnone, ite_self, Option.or_none]
  | ok data =>
    cases hm : m.get? r.key with
    | some d =>
      rw [read_of_remembered hb hm]
      split
      · next hk => rw [← hk, hm]; rfl
      · rw [Option.or_none]
    | none =>
      rw [read_of_unknown hb hm]
      cases ht : r.tells? with
      | none => rw [ite_self, Option.or_none]; rfl
      | some d =>
        change (m.insert r.key d).get? key = _
        rw [Table.get?_insert]
        split
        · next hk => rw [← hk, hm]; rfl
        · rw [Option.or_none]

theorem outcome_read (m : DecimalsMemory) (r : AggregatorReading) :
    (m.read r).1.outcome = AggregatorReading.outcome r.round
      (((m.read r).2.get? r.key).getD Round.assumedDecimals) := by
  rw [get?_read, if_pos rfl, AggregatorReading.outcome]
  cases hb : AggregatorReading.bytes r.round with
  | error e => rw [read_of_error hb]; rfl
  | ok data =>
    cases hm : m.get? r.key with
    | some d => rw [read_of_remembered hb hm]; rfl
    | none => rw [read_of_unknown hb hm]; rfl

/-- The reply for the round is the first thing exchanged. -/
theorem head?_exchanged_read (m : DecimalsMemory) (r : AggregatorReading) :
    (m.read r).1.exchanged.head? = some (.latestRound, r.round) := by
  cases hb : AggregatorReading.bytes r.round with
  | error e => rw [read_of_error hb]; rfl
  | ok data =>
    cases hm : m.get? r.key with
    | some d => rw [read_of_remembered hb hm]; rfl
    | none => rw [read_of_unknown hb hm]; rfl

/-! ### Runs -/

/-- What is remembered after some readings of a new client is what was told in them. -/
def Knows (m : DecimalsMemory) (before : List AggregatorReading) : Prop :=
  ∀ key, m.get? key = told key before

theorem Knows.read {m : DecimalsMemory} {before : List AggregatorReading} (h : m.Knows before)
    (r : AggregatorReading) : (m.read r).2.Knows (before ++ [r]) := by
  intro key
  rw [get?_read, told_concat, h key]

theorem Knows.outcome_read {m : DecimalsMemory} {before : List AggregatorReading}
    (h : m.Knows before) (r : AggregatorReading) :
    (m.read r).1.outcome = AggregatorReading.outcome r.round (given before r) := by
  rw [DecimalsMemory.outcome_read, h.read r, given]

/-- The readings of a network, by what they reply and what digits they are given. -/
theorem Knows.filter_readAll {m : DecimalsMemory} {before : List AggregatorReading}
    (h : m.Knows before) (n : NetworkId) (rs : List AggregatorReading) :
    ((m.readAll rs).filter fun x => x.network = n).map
        (fun x => (x.exchanged.head?, x.outcome)) =
      (givenFrom n before rs).map
        fun p => (some (.latestRound, p.1), AggregatorReading.outcome p.1 p.2) := by
  induction rs generalizing m before with
  | nil => rfl
  | cons r rs ih =>
    rw [readAll, givenFrom]
    by_cases hn : r.network = n
    · have hx : (m.read r).1.network = n := hn
      rw [List.filter_cons_of_pos (by simpa using hx), if_pos hn, List.map_cons, List.map_cons,
        ih (h.read r), head?_exchanged_read, h.outcome_read]
    · have hx : ¬ (m.read r).1.network = n := hn
      rw [List.filter_cons_of_neg (by simpa using hx), if_neg hn, ih (h.read r)]

theorem knows_empty : Knows .empty [] := fun _ => rfl

theorem rounds_eq_map (n : NetworkId) (rs : List AggregatorReading) :
    rounds n rs = (givenFrom n [] rs).map fun p => AggregatorReading.outcome p.1 p.2 := by
  have h := congrArg (List.map Prod.snd) (knows_empty.filter_readAll n rs)
  rw [List.map_map, List.map_map] at h
  exact h

/-- The replies for the rounds are among what is observed. -/
theorem map_fst_givenFrom (n : NetworkId) (rs : List AggregatorReading) :
    (observed n rs).map (fun o => o.2.head?) =
      ((givenFrom n [] rs).map Prod.fst).map fun reply => some (.latestRound, reply) := by
  have h := congrArg (List.map Prod.fst) (knows_empty.filter_readAll n rs)
  rw [List.map_map, List.map_map] at h
  rw [observed, List.map_map, List.map_map]
  exact h

/-- Lists of the same replies have the same outcomes exactly when the rounds among them are given
the same digits. -/
theorem map_outcome_eq_iff {ps qs : List (Except RpcFault Json × UInt8)}
    (h : ps.map Prod.fst = qs.map Prod.fst) :
    (ps.map fun p => AggregatorReading.outcome p.1 p.2) =
        (qs.map fun p => AggregatorReading.outcome p.1 p.2) ↔
      (ps.filter fun p => AggregatorReading.holdsRound p.1).map Prod.snd =
        (qs.filter fun p => AggregatorReading.holdsRound p.1).map Prod.snd := by
  induction ps generalizing qs with
  | nil =>
    cases qs with
    | nil => exact ⟨fun _ => rfl, fun _ => rfl⟩
    | cons q qs => cases h
  | cons p ps ih =>
    cases qs with
    | nil => cases h
    | cons q qs =>
      obtain ⟨reply, d⟩ := p
      obtain ⟨reply', d'⟩ := q
      obtain ⟨hreply, hrest⟩ := List.cons.inj h
      obtain rfl : reply = reply' := hreply
      rw [List.map_cons, List.map_cons, List.cons.injEq, ih hrest,
        AggregatorReading.outcome_eq_iff]
      by_cases hround : AggregatorReading.holdsRound reply = true
      · simp [hround]
      · simp [hround]

/-! ### Networks of their own -/

/-- What becomes of a reading depends on what is remembered of its own address only. -/
theorem read_fst_congr {m m' : DecimalsMemory} {r : AggregatorReading}
    (hm : m.get? r.key = m'.get? r.key) : (m.read r).1 = (m'.read r).1 := by
  cases hb : AggregatorReading.bytes r.round with
  | error e => rw [read_of_error hb, read_of_error hb]
  | ok data =>
    cases hd : m.get? r.key with
    | some d => rw [read_of_remembered hb hd, read_of_remembered hb (hm ▸ hd)]
    | none => rw [read_of_unknown hb hd, read_of_unknown hb (hm ▸ hd)]

/-- **A network that shares no address is read as if it were alone.** -/
theorem filter_readAll_of_unshared {n : NetworkId} {rs : List AggregatorReading}
    (h : Unshared n rs) {m m' : DecimalsMemory}
    (hm : ∀ q ∈ rs, q.network = n → m.get? q.key = m'.get? q.key) :
    ((m.readAll rs).filter fun x => x.network = n) =
      m'.readAll (rs.filter fun r => r.network = n) := by
  induction rs generalizing m m' with
  | nil => rfl
  | cons r rs ih =>
    have htail : Unshared n rs := fun q hq hne p hp =>
      h q (List.mem_cons_of_mem _ hq) hne p (List.mem_cons_of_mem _ hp)
    rw [readAll]
    by_cases hn : r.network = n
    · have hx : (m.read r).1.network = n := hn
      rw [List.filter_cons_of_pos (by simpa using hx), List.filter_cons_of_pos (by simpa using hn),
        readAll, read_fst_congr (hm r (List.mem_cons_self ..) hn)]
      -- both remember what this reading tells
      refine congrArg _ (ih htail fun q hq hqn => ?_)
      rw [get?_read, get?_read, hm q (List.mem_cons_of_mem _ hq) hqn]
    · have hx : ¬ (m.read r).1.network = n := hn
      rw [List.filter_cons_of_neg (by simpa using hx), List.filter_cons_of_neg (by simpa using hn)]
      -- only the whole run has read `r`, at an address that nobody on the network reads
      refine ih htail fun q hq hqn => ?_
      have hkey : r.key ≠ q.key :=
        h r (List.mem_cons_self ..) hn q (List.mem_cons_of_mem _ hq) hqn
      rw [get?_read, if_neg hkey, Option.or_none, hm q (List.mem_cons_of_mem _ hq) hqn]

/-- Two readings of one address that exchange the same have the same outcome, and the same is
remembered after them as before. -/
theorem read_congr {m m' : DecimalsMemory} {r r' : AggregatorReading}
    (hm : ∀ key, m.get? key = m'.get? key) (hcontract : r.contract = r'.contract)
    (hexchanged : (m.read r).1.exchanged = (m'.read r').1.exchanged) :
    (m.read r).1.outcome = (m'.read r').1.outcome ∧
      ∀ key, (m.read r).2.get? key = (m'.read r').2.get? key := by
  have hkey : r.key = r'.key := congrArg Text.asciiLower hcontract
  -- the reply for the round stands first, and decides whether there is a second call
  have hround : r.round = r'.round := by
    have hhead := congrArg List.head? hexchanged
    rw [head?_exchanged_read, head?_exchanged_read] at hhead
    exact (Prod.mk.inj (Option.some.inj hhead)).2
  cases hb : AggregatorReading.bytes r.round with
  | error e =>
    rw [read_of_error hb, read_of_error (hround ▸ hb)]
    exact ⟨rfl, hm⟩
  | ok data =>
    have hb' : AggregatorReading.bytes r'.round = .ok data := hround ▸ hb
    cases hd : m.get? r.key with
    | some d =>
      rw [read_of_remembered hb hd, read_of_remembered hb' (hkey ▸ hm r.key ▸ hd)]
      exact ⟨rfl, hm⟩
    | none =>
      have hd' : m'.get? r'.key = none := hkey ▸ hm r.key ▸ hd
      rw [read_of_unknown hb hd, read_of_unknown hb' hd'] at hexchanged
      have hdigits : r.digits = r'.digits := by
        have hlast := (List.cons.inj (List.cons.inj hexchanged).2).1
        exact (Prod.mk.inj hlast).2
      have htells : r.tells? = r'.tells? := by
        rw [AggregatorReading.tells?, AggregatorReading.tells?, hround, hdigits]
      refine ⟨?_, fun key => ?_⟩
      · rw [read_of_unknown hb hd, read_of_unknown hb' hd', htells]
      · rw [get?_read, get?_read, hm key, hkey, htells]

/-- Whoever exchanges the same over the same addresses reads the same rounds. -/
theorem map_outcome_readAll {rs rs' : List AggregatorReading} {m m' : DecimalsMemory}
    (hm : ∀ key, m.get? key = m'.get? key)
    (hagree : (m.readAll rs).map (fun x => (x.contract, x.exchanged)) =
      (m'.readAll rs').map fun x => (x.contract, x.exchanged)) :
    (m.readAll rs).map AggregatorRead.outcome = (m'.readAll rs').map AggregatorRead.outcome := by
  induction rs generalizing rs' m m' with
  | nil =>
    cases rs' with
    | nil => rfl
    | cons r' rs' => cases hagree
  | cons r rs ih =>
    cases rs' with
    | nil => cases hagree
    | cons r' rs' =>
      rw [readAll, readAll, List.map_cons, List.map_cons] at hagree
      obtain ⟨hhead, htail⟩ := List.cons.inj hagree
      obtain ⟨hcontract, hexchanged⟩ := Prod.mk.inj hhead
      obtain ⟨houtcome, hafter⟩ := read_congr hm hcontract hexchanged
      rw [readAll, readAll, List.map_cons, List.map_cons, houtcome, ih hafter htail]

theorem reads_of_unshared {n : NetworkId} {rs : List AggregatorReading} (h : Unshared n rs) :
    reads n rs = readAll .empty (rs.filter fun r => r.network = n) :=
  filter_readAll_of_unshared h fun _ _ _ => rfl

/-- **When other networks do not show.** Let a network see the same calls and replies in two runs of
new clients. It reads the same rounds in both exactly when those that could be read are given the
same digits: the digits first told of their addresses by then, on whatever network. That is so if no
other network reads an address that this one reads. -/
theorem rounds_eq_iff {n : NetworkId} {rs rs' : List AggregatorReading}
    (hagree : observed n rs = observed n rs') :
    (rounds n rs = rounds n rs' ↔ digitsGiven n rs = digitsGiven n rs') ∧
      (Unshared n rs → Unshared n rs' → rounds n rs = rounds n rs') := by
  constructor
  · have hreplies : (givenFrom n [] rs).map Prod.fst = (givenFrom n [] rs').map Prod.fst := by
      have h := congrArg (List.map fun o => o.2.head?) hagree
      rw [map_fst_givenFrom, map_fst_givenFrom] at h
      refine (List.map_inj_right fun reply reply' heq => ?_).mp h
      exact (Prod.mk.inj (Option.some.inj heq)).2
    rw [rounds_eq_map, rounds_eq_map, digitsGiven, digitsGiven]
    exact map_outcome_eq_iff hreplies
  · intro h h'
    rw [observed, observed, reads_of_unshared h, reads_of_unshared h'] at hagree
    rw [rounds, rounds, reads_of_unshared h, reads_of_unshared h']
    exact map_outcome_readAll (fun _ => rfl) hagree

/-! ### Two networks that share an address -/

/-- What one network tells of an address is given to the next one that reads it. -/
theorem reads_of_shared {r q : AggregatorReading} {data : List UInt8} {d : UInt8}
    (htells : r.tells? = some d) (hq : AggregatorReading.bytes q.round = .ok data)
    (hkey : r.key = q.key) (hn : r.network ≠ q.network) :
    reads q.network [r, q] =
      [⟨q.network, q.contract, [(.latestRound, q.round)], Round.decode data d⟩] := by
  have hafter : (read .empty r).2.get? q.key = some d := by
    rw [get?_read, if_pos hkey, htells]
    rfl
  have hx : ¬ (read .empty r).1.network = q.network := hn
  rw [reads, readAll, readAll, readAll, List.filter_cons_of_neg (by simpa using hx),
    read_of_remembered hq hafter, List.filter_cons_of_pos (by simp), List.filter_nil]

/-- A round in which all is zero. -/
def zeroRound : Json := .str (String.ofList (List.replicate 320 '0'))

/-- A number of digits below 256, of which the last two hexadecimal digits are given. -/
def digitsWord (last : List Char) : Json :=
  .str (String.ofList (List.replicate 62 '0' ++ last))

/-- A reading of one address on a network where it tells so many digits. -/
def zeroReading (n : NetworkId) (last : List Char) : AggregatorReading :=
  ⟨n, "0xa", .ok zeroRound, .ok (digitsWord last)⟩

set_option maxRecDepth 4000 in
theorem decodeResult_zeroRound : decodeResult zeroRound = .ok (List.replicate 160 0) :=
  decodeResult_ofList (by rfl) (by rfl)

set_option maxRecDepth 4000 in
theorem decode_zeroRound (d : UInt8) :
    Round.decode (List.replicate 160 0) d = .ok ⟨0, 0, 0, 0, 0, d⟩ := by
  rfl

theorem tells?_zeroReading (n : NetworkId) {last : List Char} {word : List UInt8} {d : UInt8}
    (hword : decodeResult (digitsWord last) = .ok word) (hd : decodeDecimals word = .ok d) :
    (zeroReading n last).tells? = some d := by
  have hround : AggregatorReading.bytes (zeroReading n last).round =
      .ok (List.replicate 160 0) := decodeResult_zeroRound
  have hdigits : AggregatorReading.bytes (zeroReading n last).digits = .ok word := hword
  rw [AggregatorReading.tells?, hround, hdigits]
  change (decodeDecimals word).toOption = some d
  rw [hd]
  rfl

theorem reads_zeroReading {last : List Char} {word : List UInt8} {d : UInt8}
    (hword : decodeResult (digitsWord last) = .ok word) (hd : decodeDecimals word = .ok d)
    (own : List Char) :
    reads 2 [zeroReading 1 last, zeroReading 2 own] =
      [⟨2, "0xa", [(.latestRound, .ok zeroRound)], .ok ⟨0, 0, 0, 0, 0, d⟩⟩] := by
  have hround : AggregatorReading.bytes (zeroReading 2 own).round =
      .ok (List.replicate 160 0) := decodeResult_zeroRound
  have hnetwork : (1 : NetworkId) ≠ 2 := by decide
  rw [← decode_zeroRound]
  exact reads_of_shared (tells?_zeroReading 1 hword hd) hround rfl hnetwork

theorem reads_after_eighteen (own : List Char) :
    reads 2 [zeroReading 1 ['1', '2'], zeroReading 2 own] =
      [⟨2, "0xa", [(.latestRound, .ok zeroRound)], .ok ⟨0, 0, 0, 0, 0, 18⟩⟩] := by
  have hword : decodeResult (digitsWord ['1', '2']) = .ok (List.replicate 31 0 ++ [18]) :=
    decodeResult_ofList (by rfl) (by rfl)
  exact reads_zeroReading hword (by rfl) own

theorem reads_after_six (own : List Char) :
    reads 2 [zeroReading 1 ['0', '6'], zeroReading 2 own] =
      [⟨2, "0xa", [(.latestRound, .ok zeroRound)], .ok ⟨0, 0, 0, 0, 0, 6⟩⟩] := by
  have hword : decodeResult (digitsWord ['0', '6']) = .ok (List.replicate 31 0 ++ [6]) :=
    decodeResult_ofList (by rfl) (by rfl)
  exact reads_zeroReading hword (by rfl) own

theorem observed_after_told :
    observed 2 [zeroReading 1 ['1', '2'], zeroReading 2 ['0', '6']] =
      observed 2 [zeroReading 1 ['0', '6'], zeroReading 2 ['0', '6']] := by
  rw [observed, observed, reads_after_eighteen, reads_after_six]
  rfl

/-- The second network has six digits and sees one reply in both runs, the same in both. The round
it reads is given the digits of the first network. -/
theorem rounds_ne_of_shared :
    observed 2 [zeroReading 1 ['1', '2'], zeroReading 2 ['0', '6']] =
        observed 2 [zeroReading 1 ['0', '6'], zeroReading 2 ['0', '6']] ∧
      rounds 2 [zeroReading 1 ['1', '2'], zeroReading 2 ['0', '6']] ≠
        rounds 2 [zeroReading 1 ['0', '6'], zeroReading 2 ['0', '6']] := by
  refine ⟨observed_after_told, fun h => ?_⟩
  rw [rounds, rounds, reads_after_eighteen, reads_after_six] at h
  have hround := Except.ok.inj (List.cons.inj h).1
  have hdigits : (18 : UInt8) = 6 := congrArg Round.decimals hround
  exact absurd hdigits (by decide)

/-- To the second network the two runs look alike. What the first one tells is what it comes to. -/
theorem rounds_eq_iff_of_shared :
    observed 2 [zeroReading 1 ['1', '2'], zeroReading 2 ['0', '6']] =
        observed 2 [zeroReading 1 ['0', '6'], zeroReading 2 ['0', '6']] ∧
      (rounds 2 [zeroReading 1 ['1', '2'], zeroReading 2 ['0', '6']] =
          rounds 2 [zeroReading 1 ['0', '6'], zeroReading 2 ['0', '6']] ↔
        digitsGiven 2 [zeroReading 1 ['1', '2'], zeroReading 2 ['0', '6']] =
          digitsGiven 2 [zeroReading 1 ['0', '6'], zeroReading 2 ['0', '6']]) :=
  ⟨observed_after_told, (rounds_eq_iff observed_after_told).1⟩

end DecimalsMemory

end PriceRelay
