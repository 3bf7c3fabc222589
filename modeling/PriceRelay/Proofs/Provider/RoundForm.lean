import PriceRelay.Fetch.Single
import PriceRelay.Proofs.Text.Hex
import PriceRelay.Proofs.WordBytes
import PriceRelay.Provider.Aggregator
/-!
# The form of a round

A contract answers in words of 32 bytes, which come as hexadecimal text. A round is its first five
words, and the number of digits the first one; whatever is behind them does not matter. What is read
of them is what was written, and nothing that is too short is read.

* `Round.bytes` are the words of a round, `WritesBytes` says which texts write some bytes,
* `Round.decode_eq_ok_iff`, `decodeDecimals_eq_ok_iff` and `decodeResult_eq_ok_iff` say what is read,
* `Round.read_as_written` puts them together, up to the record that is made of a text.
-/

namespace PriceRelay

open Word (bigEndian Holds)

/-! ### Texts of bytes -/

/-- A text writes some bytes: it is their digits, with or without an opening `0x`. -/
def WritesBytes (text : String) (bytes : List UInt8) : Prop :=
  ∃ cs, (text.toList = cs ∨ text.toList = '0' :: 'x' :: cs) ∧ Text.Hex.Digits cs bytes

/-- An opening `0x` is no digit. -/
theorem not_digits_opening {cs : List Char} {bytes : List UInt8} :
    ¬ Text.Hex.Digits ('0' :: 'x' :: cs) bytes := by
  intro h
  obtain ⟨d, rest, -, hrest, -⟩ := List.forall₂_cons_left_iff.mp h
  obtain ⟨e, -, hx, -, -⟩ := List.forall₂_cons_left_iff.mp hrest
  have hrange := Text.Hex.isDigit_iff.mp hx
  rw [show 'x'.toNat = 120 from rfl] at hrange
  omega

/-- **A result is read as the bytes that it writes.** -/
theorem decodeResult_eq_ok_iff {text : String} {bytes : List UInt8} :
    decodeResult (.str text) = .ok bytes ↔ WritesBytes text bytes := by
  have hresult : decodeResult (.str text) = .ok bytes ↔
      Text.Hex.Digits ((Text.dropStart? text "0x").getD text).toList bytes := by
    rw [← Text.Hex.decode_eq_ok_iff]
    simp only [decodeResult, Json.str, Json.text?]
    cases Text.Hex.decode ((Text.dropStart? text "0x").getD text) <;> simp
  rw [hresult, WritesBytes, Text.dropStart?]
  cases hopening : "0x".toList.isPrefixOf? text.toList with
  | some cs =>
    have htext : text.toList = '0' :: 'x' :: cs :=
      (List.isPrefixOf?_eq_some_iff_append_eq.mp hopening).symm
    simp [htext, not_digits_opening]
  | none =>
    have hno (cs : List Char) : text.toList ≠ '0' :: 'x' :: cs := by
      intro htext
      rw [htext] at hopening
      cases hopening
    simp [hno]

/-! ### Words -/

theorem wordAt_eq_ok_iff {data : List UInt8} {i : Nat} {w : Word} :
    wordAt data i = .ok w ↔ (data.drop (i * 32)).take 32 = w.toBytes := by
  rw [wordAt, wordBytes]
  split
  · next hle =>
    have hlength : ((data.drop (i * 32)).take 32).length = 32 := by
      rw [List.length_take, List.length_drop]
      omega
    rw [← Word.ofBytes_eq_iff hlength]
    exact ⟨Except.ok.inj, congrArg Except.ok⟩
  · next hlt =>
    constructor
    · intro h
      cases h
    · intro h
      have hlength := congrArg List.length h
      rw [Word.length_toBytes, List.length_take, List.length_drop] at hlength
      omega

theorem exists_wordAt_iff {data : List UInt8} {i : Nat} :
    (∃ w, wordAt data i = .ok w) ↔ (i + 1) * 32 ≤ data.length := by
  rw [wordAt, wordBytes]
  split
  · next hle => exact ⟨fun _ => hle, fun _ => ⟨_, rfl⟩⟩
  · next hlt =>
    refine ⟨?_, fun h => absurd h hlt⟩
    rintro ⟨w, hw⟩
    cases hw

/-! ### Rounds -/

namespace Round

/-- The bytes of a round: its words, one after another. -/
def bytes (r : Round) : List UInt8 :=
  r.roundId.toBytes ++ (r.answer.toBytes ++ (r.startedAt.toBytes ++
    (r.updatedAt.toBytes ++ r.answeredInRound.toBytes)))

theorem length_bytes (r : Round) : r.bytes.length = 160 := by
  simp only [bytes, List.length_append, Word.length_toBytes]

/-- A round is read if each of its words is. -/
theorem decode_eq_ok_iff_words {data : List UInt8} {d : UInt8} {r : Round} :
    decode data d = .ok r ↔ wordAt data 0 = .ok r.roundId ∧ wordAt data 1 = .ok r.answer ∧
      wordAt data 2 = .ok r.startedAt ∧ wordAt data 3 = .ok r.updatedAt ∧
      wordAt data 4 = .ok r.answeredInRound ∧ d = r.decimals := by
  obtain ⟨roundId, answer, startedAt, updatedAt, answeredInRound, decimals⟩ := r
  rw [decode]
  cases wordAt data 0 with
  | error e => simp [bind, Except.bind]
  | ok roundId =>
    cases wordAt data 1 with
    | error e => simp [bind, Except.bind]
    | ok answer =>
      cases wordAt data 2 with
      | error e => simp [bind, Except.bind]
      | ok startedAt =>
        cases wordAt data 3 with
        | error e => simp [bind, Except.bind]
        | ok updatedAt =>
          cases wordAt data 4 <;> simp [bind, Except.bind, pure, Except.pure]

/-- The first bytes of a result, word by word. -/
theorem take_words (data : List UInt8) :
    data.take 160 = (data.drop (0 * 32)).take 32 ++ ((data.drop (1 * 32)).take 32 ++
      ((data.drop (2 * 32)).take 32 ++ ((data.drop (3 * 32)).take 32 ++
        (data.drop (4 * 32)).take 32))) := by
  have hcut (i rest : Nat) : (data.drop i).take (32 + rest) =
      (data.drop i).take 32 ++ (data.drop (i + 32)).take rest := by
    rw [List.take_add, List.drop_drop]
  calc data.take 160 = (data.drop 0).take (32 + 128) := rfl
    _ = _ := by rw [hcut 0 128, hcut 32 96, hcut 64 64, hcut 96 32]

/-- **A round is read from the bytes that begin with its words**, and from no others. -/
theorem decode_eq_ok_iff {data : List UInt8} {d : UInt8} {r : Round} :
    decode data d = .ok r ↔ r.bytes = data.take 160 ∧ d = r.decimals := by
  simp only [decode_eq_ok_iff_words, wordAt_eq_ok_iff]
  constructor
  · rintro ⟨hroundId, hanswer, hstartedAt, hupdatedAt, hansweredInRound, hd⟩
    rw [take_words, hroundId, hanswer, hstartedAt, hupdatedAt, hansweredInRound]
    exact ⟨rfl, hd⟩
  · rintro ⟨hbytes, hd⟩
    have hlength : 160 ≤ data.length := by
      have h := congrArg List.length hbytes
      rw [length_bytes, List.length_take] at h
      omega
    have hword {i : Nat} (hi : i < 5) {w : Word} :
        w.toBytes.length = ((data.drop (i * 32)).take 32).length := by
      rw [Word.length_toBytes, List.length_take, List.length_drop]
      omega
    -- the words are of one length, so they are cut off one by one
    rw [bytes, take_words] at hbytes
    obtain ⟨hroundId, hbytes⟩ := List.append_inj hbytes (hword (by decide))
    obtain ⟨hanswer, hbytes⟩ := List.append_inj hbytes (hword (by decide))
    obtain ⟨hstartedAt, hbytes⟩ := List.append_inj hbytes (hword (by decide))
    obtain ⟨hupdatedAt, hansweredInRound⟩ := List.append_inj hbytes (hword (by decide))
    exact ⟨hroundId.symm, hanswer.symm, hstartedAt.symm, hupdatedAt.symm, hansweredInRound.symm,
      hd⟩

theorem decode_append (r : Round) (rest : List UInt8) :
    decode (r.bytes ++ rest) r.decimals = .ok r :=
  decode_eq_ok_iff.mpr ⟨(List.take_left' r.length_bytes).symm, rfl⟩

theorem exists_decode_iff {data : List UInt8} {d : UInt8} :
    (∃ r, decode data d = .ok r) ↔ 160 ≤ data.length := by
  constructor
  · rintro ⟨r, hr⟩
    have hlength := congrArg List.length (decode_eq_ok_iff.mp hr).1
    rw [length_bytes, List.length_take] at hlength
    omega
  · intro hlength
    have hexists (i : Nat) (hi : i < 5) : ∃ w, wordAt data i = .ok w :=
      exists_wordAt_iff.mpr (by omega)
    obtain ⟨roundId, hroundId⟩ := hexists 0 (by decide)
    obtain ⟨answer, hanswer⟩ := hexists 1 (by decide)
    obtain ⟨startedAt, hstartedAt⟩ := hexists 2 (by decide)
    obtain ⟨updatedAt, hupdatedAt⟩ := hexists 3 (by decide)
    obtain ⟨answeredInRound, hansweredInRound⟩ := hexists 4 (by decide)
    exact ⟨⟨roundId, answer, startedAt, updatedAt, answeredInRound, d⟩,
      decode_eq_ok_iff_words.mpr
        ⟨hroundId, hanswer, hstartedAt, hupdatedAt, hansweredInRound, rfl⟩⟩

end Round

/-! ### The number of digits -/

theorem any_ne_zero_iff {bytes : List UInt8} :
    bytes.any (· ≠ 0) = true ↔ bigEndian bytes ≠ 0 := by
  induction bytes using List.reverseRecOn with
  | nil => simp [bigEndian]
  | append_singleton bytes b ih =>
    have hb : b ≠ 0 ↔ b.toNat ≠ 0 := by rw [Ne, ← UInt8.toNat_inj]; rfl
    rw [List.any_append, Bool.or_eq_true, ih, Word.bigEndian_concat]
    simp [hb]
    omega

/-- **The number of digits is the value of the first word**, if that is a number below 256. -/
theorem decodeDecimals_eq_ok_iff {data : List UInt8} {d : UInt8} :
    decodeDecimals data = .ok d ↔ 32 ≤ data.length ∧ bigEndian (data.take 32) = d.toNat := by
  rw [decodeDecimals, wordBytes]
  split
  · next hle =>
    have hlength : (data.take 32).length = 32 := by
      rw [List.length_take]
      omega
    obtain ⟨front, last, hword⟩ : ∃ front last, data.take 32 = front ++ [last] := by
      rcases List.eq_nil_or_concat (data.take 32) with hnil | ⟨front, last, h⟩
      · rw [hnil] at hlength
        cases hlength
      · exact ⟨front, last, h.trans List.concat_eq_append⟩
    have hfront : front.length = 31 := by
      rw [hword, List.length_append, List.length_singleton] at hlength
      omega
    simp only [Nat.zero_mul, List.drop_zero, hword, bind, Except.bind]
    have hlast : (front ++ [last]).getD 31 0 = last := by
      rw [List.getD, List.getElem?_append_right hfront.le, hfront]
      rfl
    have hd : d.toNat < 256 := d.toNat_lt
    rw [List.take_left' hfront, hlast, Word.bigEndian_concat]
    split
    · next hany =>
      have hhigh : bigEndian front ≠ 0 := any_ne_zero_iff.mp hany
      constructor
      · intro h
        cases h
      · omega
    · next hnone =>
      have hhigh : bigEndian front = 0 := not_not.mp (mt any_ne_zero_iff.mpr hnone)
      rw [hhigh, Nat.zero_mul, Nat.zero_add, UInt8.toNat_inj]
      exact ⟨fun h => ⟨hle, Except.ok.inj h⟩, fun h => congrArg Except.ok h.2⟩
  · next hlt => simp [bind, Except.bind]; omega

theorem exists_decodeDecimals_iff {data : List UInt8} :
    (∃ d, decodeDecimals data = .ok d) ↔ 32 ≤ data.length ∧ bigEndian (data.take 32) < 256 := by
  simp only [decodeDecimals_eq_ok_iff]
  constructor
  · rintro ⟨d, hlength, hvalue⟩
    exact ⟨hlength, hvalue ▸ d.toNat_lt⟩
  · rintro ⟨hlength, hlt⟩
    refine ⟨UInt8.ofNat (bigEndian (data.take 32)), hlength, ?_⟩
    rw [UInt8.toNat_ofNat', Nat.mod_eq_of_lt hlt]

/-! ### From a text to a record -/

/-- A round that comes as a text is read as it was written, with the digits of its contract. -/
theorem readRound_of_writes {σ : Type} {calls : DecimalsMemory.Calls σ} {m : DecimalsMemory}
    {contract text : String} {s t : σ} {r : Round} {rest : List UInt8}
    (hreply : calls (.latestRound, contract) s = (.ok (.str text), t))
    (htext : WritesBytes text (r.bytes ++ rest))
    (hdigits : (DecimalsMemory.digits calls m contract t).1 = r.decimals) :
    (DecimalsMemory.readRound calls m contract s).1 = .ok r := by
  have hdata : DecimalsMemory.call calls .latestRound contract s = (.ok (r.bytes ++ rest), t) := by
    simp only [DecimalsMemory.call, hreply, decodeResult_eq_ok_iff.mpr htext]
  simp only [DecimalsMemory.readRound, hdata, hdigits]
  exact r.decode_append rest

/-- What is written of a round has its answer, and minus its number of digits for a power of ten. -/
theorem written_of_answer {f : Fetch} {call : FailoverCall Round} {r : Round}
    (hanswer : call.answer? = some (.ok r)) (now : Moment) :
    ∃ record, (f.follow now call).2 = [⟨f.feed, record⟩] ∧ record.magnitude = r.answer ∧
      record.scale.toInt = -(r.decimals.toNat : Int) := by
  have hd : r.decimals.toNat < 256 := r.decimals.toNat_lt
  refine ⟨.aggregator (r.price f.network f.address now), ?_, rfl, ?_⟩
  · rw [Fetch.follow, hanswer]
  · exact Int32.toInt_ofInt_of_le (by omega) (by omega)

/-- **What is read is what was written.** A round is read from its words, whatever is behind them; any
160 bytes are the words of a round, and fewer are none. The words are the big-endian bytes of their
numbers, the answer in two's complement. The number of digits is the value of the first word, which
has to be below 256. A text is read as the bytes it writes, in letters of whatever case, and as no
others. So a text that begins with the words of a round makes a fetch write a record with the answer
of the round, and with minus its number of digits for a power of ten. -/
theorem Round.read_as_written :
    (∀ (r : Round) (rest : List UInt8), decode (r.bytes ++ rest) r.decimals = .ok r) ∧
    (∀ data d, (∃ r, decode data d = .ok r) ↔ 160 ≤ data.length) ∧
    (∀ data d r, decode data d = .ok r → r.bytes = data.take 160 ∧ r.decimals = d) ∧
    (∀ (w : Word) (bytes : List UInt8),
      (Holds bytes w.toNat ↔ bytes = w.toBytes) ∧ (Holds bytes w.toInt ↔ bytes = w.toBytes)) ∧
    (∀ data, (∃ d, decodeDecimals data = .ok d) ↔
      32 ≤ data.length ∧ bigEndian (data.take 32) < 256) ∧
    (∀ data d, decodeDecimals data = .ok d → d.toNat = bigEndian (data.take 32)) ∧
    (∀ text bytes, decodeResult (.str text) = .ok bytes ↔ WritesBytes text bytes) ∧
    ∀ (σ : Type) (calls : DecimalsMemory.Calls σ) (m : DecimalsMemory) (f : Fetch) (now : Moment)
      (call : FailoverCall Round) (s t : σ) (text : String) (r : Round) (rest : List UInt8),
      calls (.latestRound, f.address) s = (.ok (.str text), t) →
      WritesBytes text (r.bytes ++ rest) →
      (DecimalsMemory.digits calls m f.address t).1 = r.decimals →
      call.answer? = some (DecimalsMemory.readRound calls m f.address s).1 →
      ∃ record, (f.follow now call).2 = [⟨f.feed, record⟩] ∧ record.magnitude = r.answer ∧
        record.scale.toInt = -(r.decimals.toNat : Int) := by
  refine ⟨decode_append, fun _ _ => exists_decode_iff, ?_, ?_, fun _ => exists_decodeDecimals_iff,
    ?_, fun _ _ => decodeResult_eq_ok_iff, ?_⟩
  · intro data d r h
    obtain ⟨hbytes, hd⟩ := decode_eq_ok_iff.mp h
    exact ⟨hbytes, hd.symm⟩
  · exact fun w bytes => ⟨Word.holds_toNat_iff, Word.holds_toInt_iff⟩
  · exact fun data d h => (decodeDecimals_eq_ok_iff.mp h).2.symm
  · intro σ calls m f now call s t text r rest hreply htext hdigits hanswer
    rw [readRound_of_writes hreply htext hdigits] at hanswer
    exact written_of_answer hanswer now

/-- A negative answer, with one more byte behind the words that is written in letters of both cases.
The digits of the contract are remembered. -/
theorem Round.read_as_written_of_negative :
    let r : Round := ⟨7, -42, 0, 1700000000, 7, 18⟩
    let text := String.ofList ('0' :: 'x' :: (Text.Hex.encode r.bytes ++ ['A', 'b']))
    let calls : DecimalsMemory.Calls Unit := fun _ s => (.ok (.str text), s)
    let m : DecimalsMemory := Table.empty.insert "0xa" 18
    let f : Fetch := ⟨1, "0xA", .waiting⟩
    let call : FailoverCall Round :=
      ⟨1, 1, .finished (DecimalsMemory.readRound calls m "0xA" ()).1⟩
    WritesBytes text (r.bytes ++ [0xab]) ∧ (DecimalsMemory.digits calls m "0xA" ()).1 = 18 ∧
      ∃ record, (f.follow (.epoch 0) call).2 = [⟨f.feed, record⟩] ∧ record.magnitude = -42 ∧
        record.scale.toInt = -18 := by
  intro r text calls m f call
  have hlast : Text.Hex.Digits ['A', 'b'] [0xab] :=
    .cons ⟨by decide, by decide⟩ (.cons ⟨by decide, by decide⟩ .nil)
  have htext : WritesBytes text (r.bytes ++ [0xab]) :=
    ⟨_, .inr String.toList_ofList, (Text.Hex.digits_encode r.bytes).append hlast⟩
  have hdigits : (DecimalsMemory.digits calls m "0xA" ()).1 = 18 := by decide
  obtain ⟨-, -, -, -, -, -, -, hstored⟩ := Round.read_as_written
  exact ⟨htext, hdigits,
    hstored Unit calls m f (.epoch 0) call () () text r [0xab] rfl htext hdigits rfl⟩

end PriceRelay
