/-
  The value codec of ValueCodec.cpp: `encode`, the `Decoder`, `encode_value`, `decode_value`.

  The decoder's position is the input that is still to be read; its node counter is threaded
  through the recursion. The recursion on the nesting depth is structural on the levels that
  are left (`maxDepth + 1` at the root).

  * `encode_decode`: a value that fits at its depth is decoded from its own encoding, with
    exactly its nodes counted and nothing else read.
  * `decodeValue_encodeValue`: the round trip of every valid value.
-/
import LiquidLayer.Value.Basic
import LiquidLayer.Lib.Bytes

namespace LiquidLayer

open ValueLimits

inductive ValueTag where
  | null
  | false
  | true
  | signedInteger
  | unsignedInteger
  | double
  | string
  | bytes
  | array
  | object
deriving DecidableEq, Repr

namespace ValueTag

/-- The enumerators' values. -/
def code : ValueTag → Nat
  | null => 0
  | false => 1
  | true => 2
  | signedInteger => 3
  | unsignedInteger => 4
  | double => 5
  | string => 6
  | bytes => 7
  | array => 8
  | object => 9

def ofCode : Nat → Option ValueTag
  | 0 => some null
  | 1 => some false
  | 2 => some true
  | 3 => some signedInteger
  | 4 => some unsignedInteger
  | 5 => some double
  | 6 => some string
  | 7 => some bytes
  | 8 => some array
  | 9 => some object
  | _ => none

@[simp] theorem ofCode_code (t : ValueTag) : ofCode t.code = some t := by cases t <;> rfl

theorem code_of_ofCode {n : Nat} {t : ValueTag} (h : ofCode n = some t) : t.code = n := by
  unfold ofCode at h
  split at h <;> cases h <;> rfl

theorem code_lt (t : ValueTag) : t.code < 256 ^ 1 := by cases t <;> decide

end ValueTag

/-! ## Encoding -/

def appendU32 (value : UInt32) : Bytes := toLE 4 value.toNat

def appendU64 (value : UInt64) : Bytes := toLE 8 value.toNat

def checkedSize (size : Nat) : Except Failure UInt32 :=
  if size > 0xffffffff then .error (.invalidArgument "value is too large to encode")
  else .ok (UInt32.ofNat size)

/-- A tag as the one byte it is written as. -/
def tagByte (tag : ValueTag) : Bytes := toLE 1 tag.code

/-- A length field and the bytes it counts. -/
def encodeSized (data : Bytes) : Except Failure Bytes :=
  match checkedSize data.length with
  | .error e => .error e
  | .ok size => .ok (appendU32 size ++ data)

mutual

def encode : Value → Except Failure Bytes
  | .null => .ok (tagByte .null)
  | .boolean b => .ok (tagByte (if b then .true else .false))
  | .signedInteger i => .ok (tagByte .signedInteger ++ appendU64 i.toUInt64)
  | .unsignedInteger u => .ok (tagByte .unsignedInteger ++ appendU64 u)
  | .double d => .ok (tagByte .double ++ appendU64 d.bits)
  | .string text =>
      match encodeSized text with
      | .error e => .error e
      | .ok text => .ok (tagByte .string ++ text)
  | .bytes data =>
      match encodeSized data with
      | .error e => .error e
      | .ok data => .ok (tagByte .bytes ++ data)
  | .array items =>
      match checkedSize items.length with
      | .error e => .error e
      | .ok size =>
          match encodeItems items with
          | .error e => .error e
          | .ok children => .ok (tagByte .array ++ appendU32 size ++ children)
  | .object fields =>
      match checkedSize fields.length with
      | .error e => .error e
      | .ok size =>
          match encodeFields fields with
          | .error e => .error e
          | .ok children => .ok (tagByte .object ++ appendU32 size ++ children)

def encodeItems : List Value → Except Failure Bytes
  | [] => .ok []
  | child :: rest =>
      match encode child with
      | .error e => .error e
      | .ok child =>
          match encodeItems rest with
          | .error e => .error e
          | .ok rest => .ok (child ++ rest)

def encodeFields : List (Bytes × Value) → Except Failure Bytes
  | [] => .ok []
  | (key, child) :: rest =>
      match encodeSized key with
      | .error e => .error e
      | .ok key =>
          match encode child with
          | .error e => .error e
          | .ok child =>
              match encodeFields rest with
              | .error e => .error e
              | .ok rest => .ok (key ++ child ++ rest)

end

/-- `encode_value`. -/
def encodeValue (value : Value) : Except Failure Bytes :=
  match value.validate with
  | .error e => .error e
  | .ok () => encode value

/-! ## Decoding -/

/-- What a step of the `Decoder` returns, with the node counter and the input still to be read. -/
abbrev Decoded (α : Type) := Except Failure (α × Nat × Bytes)

def truncatedValue : Failure := .invalidArgument "truncated encoded value"

def readU8 (input : Bytes) : Except Failure (Nat × Bytes) := takeLE truncatedValue 1 input

def readU32 (input : Bytes) : Except Failure (Nat × Bytes) := takeLE truncatedValue 4 input

def readU64 (input : Bytes) : Except Failure (Nat × Bytes) := takeLE truncatedValue 8 input

/-- A length field of at most `limit` and the bytes it counts: `read_string`, and the same
    steps in the byte-string case. -/
def readSized (limit : Nat) (what : String) (input : Bytes) : Except Failure (Bytes × Bytes) :=
  match readU32 input with
  | .error e => .error e
  | .ok (size, input) =>
      if size > limit then .error (.invalidArgument what)
      else takeBytes truncatedValue size input

def readString (limit : Nat) (input : Bytes) : Except Failure (Bytes × Bytes) :=
  readSized limit "encoded value string limit exceeded" input

/-- `value == 0.0 ? 0.0 : value`. -/
def normaliseZero (bits : UInt64) : UInt64 := if bits = negativeZero then 0 else bits

theorem normaliseZero_ne (bits : UInt64) : normaliseZero bits ≠ negativeZero := by
  unfold normaliseZero
  split
  · decide
  · assumption

/-- `Value(double)`. -/
def Value.ofDouble (bits : UInt64) : Except Failure Value :=
  if h : isfinite (normaliseZero bits) = true then
    .ok (.double ⟨normaliseZero bits, h, normaliseZero_ne bits⟩)
  else .error (.invalidArgument "value double must be finite")

/-- A constructor that ends with `validate()`. -/
def Value.checked (value : Value) : Except Failure Value :=
  match value.validate with
  | .error e => .error e
  | .ok () => .ok value

section Children

variable (child : Nat → Bytes → Decoded Value)

/-- The loop of the array case. -/
def decodeItems : Nat → Nat → Bytes → Decoded (List Value)
  | 0, nodes, input => .ok ([], nodes, input)
  | count + 1, nodes, input =>
      match child nodes input with
      | .error e => .error e
      | .ok (value, nodes, input) =>
          match decodeItems count nodes input with
          | .error e => .error e
          | .ok (rest, nodes, input) => .ok (value :: rest, nodes, input)

/-- The loop of the object case, with the object built so far. -/
def decodeFields : Nat → Object → Nat → Bytes → Decoded Object
  | 0, object, nodes, input => .ok (object, nodes, input)
  | count + 1, object, nodes, input =>
      match readString maxStringBytes input with
      | .error e => .error e
      | .ok (key, input) =>
          match child nodes input with
          | .error e => .error e
          | .ok (value, nodes, input) =>
              match Assoc.find? key object with
              | some _ => .error (.invalidArgument "encoded object has duplicate key")
              | none => decodeFields count (Assoc.insert key value object) nodes input

/-- The `switch` of `Decoder::decode`, given how a child is decoded. -/
def decodeTagged (tag : ValueTag) (nodes : Nat) (input : Bytes) : Decoded Value :=
  match tag with
  | .null => .ok (.null, nodes, input)
  | .false => .ok (.boolean false, nodes, input)
  | .true => .ok (.boolean true, nodes, input)
  | .signedInteger =>
      match readU64 input with
      | .error e => .error e
      | .ok (bits, input) => .ok (.signedInteger (UInt64.ofNat bits).toInt64, nodes, input)
  | .unsignedInteger =>
      match readU64 input with
      | .error e => .error e
      | .ok (bits, input) => .ok (.unsignedInteger (UInt64.ofNat bits), nodes, input)
  | .double =>
      match readU64 input with
      | .error e => .error e
      | .ok (bits, input) =>
          match Value.ofDouble (UInt64.ofNat bits) with
          | .error e => .error e
          | .ok value => .ok (value, nodes, input)
  | .string =>
      match readString maxStringBytes input with
      | .error e => .error e
      | .ok (text, input) =>
          match (Value.string text).checked with
          | .error e => .error e
          | .ok value => .ok (value, nodes, input)
  | .bytes =>
      match readSized maxByteStringBytes "encoded byte-string limit exceeded" input with
      | .error e => .error e
      | .ok (data, input) =>
          match (Value.bytes data).checked with
          | .error e => .error e
          | .ok value => .ok (value, nodes, input)
  | .array =>
      match readU32 input with
      | .error e => .error e
      | .ok (count, input) =>
          if count > maxArrayItems then .error (.invalidArgument "encoded array limit exceeded")
          else
            match decodeItems child count nodes input with
            | .error e => .error e
            | .ok (items, nodes, input) => .ok (.array items, nodes, input)
  | .object =>
      match readU32 input with
      | .error e => .error e
      | .ok (count, input) =>
          if count > maxObjectItems then .error (.invalidArgument "encoded object limit exceeded")
          else
            match decodeFields child count [] nodes input with
            | .error e => .error e
            | .ok (fields, nodes, input) => .ok (.object fields, nodes, input)

end Children

/-- `Decoder::decode` at depth `maxDepth + 1 - levels`. -/
def decode : Nat → Nat → Bytes → Decoded Value
  | 0, _, _ => .error (.invalidArgument "encoded value nesting limit exceeded")
  | levels + 1, nodes, input =>
      if nodes + 1 > maxTotalNodes then
        .error (.invalidArgument "encoded value node limit exceeded")
      else
        match readU8 input with
        | .error e => .error e
        | .ok (code, input) =>
            match ValueTag.ofCode code with
            | none => .error (.invalidArgument "encoded value has unknown type tag")
            | some tag => decodeTagged (decode levels) tag (nodes + 1) input

/-- `decode_value`. -/
def decodeValue (encoded : Bytes) : Except Failure Value :=
  match decode (maxDepth + 1) 0 encoded with
  | .error e => .error e
  | .ok (value, _, rest) =>
      if rest ≠ [] then .error (.invalidArgument "encoded value has trailing bytes")
      else value.checked

/-! ## The round trip -/

theorem encodeSized_eq {data : Bytes} (h : data.length < 256 ^ 4) :
    encodeSized data = .ok (toLE 4 data.length ++ data) := by
  have hsize : ¬ data.length > 0xffffffff := by
    norm_num at h ⊢
    omega
  have hnat : (UInt32.ofNat data.length).toNat = data.length := by
    rw [UInt32.toNat_ofNat']
    exact Nat.mod_eq_of_lt (by norm_num at h ⊢; omega)
  simp only [encodeSized, checkedSize, if_neg hsize, appendU32, hnat]

theorem checkedSize_eq {size : Nat} (h : size < 256 ^ 4) :
    ∃ word, checkedSize size = .ok word ∧ appendU32 word = toLE 4 size := by
  have hsize : ¬ size > 0xffffffff := by
    norm_num at h ⊢
    omega
  refine ⟨UInt32.ofNat size, if_neg hsize, ?_⟩
  rw [appendU32, UInt32.toNat_ofNat', Nat.mod_eq_of_lt (by norm_num at h ⊢; omega)]

theorem readSized_append {limit : Nat} {what : String} {data : Bytes}
    (hlimit : data.length ≤ limit) (h : data.length < 256 ^ 4) (rest : Bytes) :
    readSized limit what (toLE 4 data.length ++ data ++ rest) = .ok (data, rest) := by
  rw [readSized, readU32, List.append_assoc, takeLE_append h]
  simp only [if_neg (Nat.not_lt.mpr hlimit)]
  exact takeBytes_append rfl rest

theorem readU64_append (word : UInt64) (rest : Bytes) :
    readU64 (appendU64 word ++ rest) = .ok (word.toNat, rest) :=
  takeLE_append (by have := word.toNat_lt; norm_num at this ⊢; exact this) rest

theorem decode_tagged {levels nodes : Nat} (h : nodes + 1 ≤ maxTotalNodes) (tag : ValueTag)
    (input : Bytes) :
    decode (levels + 1) nodes (tagByte tag ++ input) =
      decodeTagged (decode levels) tag (nodes + 1) input := by
  rw [decode, if_neg (Nat.not_lt.mpr h), readU8, tagByte, takeLE_append tag.code_lt]
  simp only [ValueTag.ofCode_code]

theorem Value.checked_eq {v : Value} (h : v.valid = true) : v.checked = .ok v := by
  unfold Value.valid at h
  unfold Value.checked
  cases hv : v.validate with
  | error e => rw [hv] at h; cases h
  | ok u => rfl

theorem fits_depth {v : Value} {depth : Nat} (h : v.fits depth = true) : depth ≤ maxDepth := by
  cases v <;> simp only [Value.fits, Bool.and_eq_true, decide_eq_true_eq] at h <;> omega

theorem FiniteDouble.normalise (d : FiniteDouble) :
    Value.ofDouble d.bits = .ok (.double d) := by
  have hbits : normaliseZero d.bits = d.bits := if_neg d.normalised
  unfold Value.ofDouble
  simp only [hbits, d.finite, dite_true]

mutual

/-- A value that fits is decoded from its own encoding. The node counter advances by the
    value's nodes, so the decoder's limit is the one of `validate_value`. -/
theorem encode_decode : ∀ (v : Value) (depth levels : Nat), depth + levels = maxDepth + 1 →
    v.fits depth = true → v.ordered = true →
    ∃ b, encode v = .ok b ∧ ∀ n rest, n + v.nodes ≤ maxTotalNodes →
      decode levels n (b ++ rest) = .ok (v, n + v.nodes, rest)
  | v, depth, 0, hd, hf, _ => by
      have := fits_depth hf
      omega
  | .null, depth, levels + 1, hd, hf, _ =>
      ⟨_, rfl, fun n rest hn => decode_tagged hn .null rest⟩
  | .boolean b, depth, levels + 1, hd, hf, _ => by
      refine ⟨_, rfl, fun n rest hn => ?_⟩
      rw [decode_tagged hn]
      cases b <;> rfl
  | .signedInteger i, depth, levels + 1, hd, hf, _ => by
      refine ⟨_, rfl, fun n rest hn => ?_⟩
      rw [List.append_assoc, decode_tagged hn]
      simp only [decodeTagged, readU64_append, UInt64.ofNat_toNat, Int64.toInt64_toUInt64]
      rfl
  | .unsignedInteger u, depth, levels + 1, hd, hf, _ => by
      refine ⟨_, rfl, fun n rest hn => ?_⟩
      rw [List.append_assoc, decode_tagged hn]
      simp only [decodeTagged, readU64_append, UInt64.ofNat_toNat]
      rfl
  | .double d, depth, levels + 1, hd, hf, _ => by
      refine ⟨_, rfl, fun n rest hn => ?_⟩
      rw [List.append_assoc, decode_tagged hn]
      simp only [decodeTagged, readU64_append, UInt64.ofNat_toNat, d.normalise]
      rfl
  | .string text, depth, levels + 1, hd, hf, _ => by
      simp only [Value.fits, Bool.and_eq_true, decide_eq_true_eq] at hf
      obtain ⟨⟨-, hlen⟩, hutf⟩ := hf
      have hsize : text.length < 256 ^ 4 := lt_of_le_of_lt hlen (by decide)
      have hvalid : (Value.string text).valid = true := by
        rw [Value.valid_iff]
        simp only [Value.fits, Value.nodes, hutf, hlen, decide_true, Bool.and_self,
          Nat.zero_le, true_and]
        decide
      refine ⟨tagByte .string ++ (toLE 4 text.length ++ text), ?_, fun n rest hn => ?_⟩
      · simp only [encode, encodeSized_eq hsize]
      · rw [List.append_assoc, decode_tagged hn]
        simp only [decodeTagged, readString, readSized_append hlen hsize,
          Value.checked_eq hvalid]
        rfl
  | .bytes data, depth, levels + 1, hd, hf, _ => by
      simp only [Value.fits, Bool.and_eq_true, decide_eq_true_eq] at hf
      obtain ⟨-, hlen⟩ := hf
      have hsize : data.length < 256 ^ 4 := lt_of_le_of_lt hlen (by decide)
      have hvalid : (Value.bytes data).valid = true := by
        rw [Value.valid_iff]
        simp only [Value.fits, Value.nodes, hlen, decide_true, Bool.and_self, Nat.zero_le,
          true_and]
        decide
      refine ⟨tagByte .bytes ++ (toLE 4 data.length ++ data), ?_, fun n rest hn => ?_⟩
      · simp only [encode, encodeSized_eq hsize]
      · rw [List.append_assoc, decode_tagged hn]
        simp only [decodeTagged, readSized_append hlen hsize, Value.checked_eq hvalid]
        rfl
  | .array items, depth, levels + 1, hd, hf, ho => by
      simp only [Value.fits, Bool.and_eq_true, decide_eq_true_eq] at hf
      obtain ⟨⟨-, hlen⟩, hfits⟩ := hf
      have hsize : items.length < 256 ^ 4 := lt_of_le_of_lt hlen (by decide)
      obtain ⟨word, hword, hbytes⟩ := checkedSize_eq hsize
      obtain ⟨b, hb, hdec⟩ := encode_decode_items items (depth + 1) levels (by omega) hfits ho
      refine ⟨tagByte .array ++ toLE 4 items.length ++ b, ?_, fun n rest hn => ?_⟩
      · simp only [encode, hword, hb, hbytes]
      · simp only [Value.nodes] at hn ⊢
        rw [List.append_assoc, List.append_assoc, decode_tagged (by omega)]
        simp only [decodeTagged, readU32, takeLE_append hsize, if_neg (Nat.not_lt.mpr hlen),
          hdec (n + 1) rest (by omega), Nat.add_assoc]
  | .object fields, depth, levels + 1, hd, hf, ho => by
      simp only [Value.fits, Bool.and_eq_true, decide_eq_true_eq] at hf
      obtain ⟨⟨-, hlen⟩, hfits⟩ := hf
      simp only [Value.ordered, Bool.and_eq_true, decide_eq_true_eq] at ho
      have hsize : fields.length < 256 ^ 4 := lt_of_le_of_lt hlen (by decide)
      obtain ⟨word, hword, hbytes⟩ := checkedSize_eq hsize
      obtain ⟨b, hb, hdec⟩ :=
        encode_decode_fields fields (depth + 1) levels (by omega) hfits ho.1 ho.2
      refine ⟨tagByte .object ++ toLE 4 fields.length ++ b, ?_, fun n rest hn => ?_⟩
      · simp only [encode, hword, hb, hbytes]
      · simp only [Value.nodes] at hn ⊢
        rw [List.append_assoc, List.append_assoc, decode_tagged (by omega)]
        simp only [decodeTagged, readU32, takeLE_append hsize, if_neg (Nat.not_lt.mpr hlen),
          hdec [] (n + 1) rest nofun (by omega), Nat.add_assoc, List.nil_append]

theorem encode_decode_items : ∀ (items : List Value) (depth levels : Nat),
    depth + levels = maxDepth + 1 → Value.fitsItems items depth = true →
    Value.orderedItems items = true →
    ∃ b, encodeItems items = .ok b ∧ ∀ n rest, n + Value.nodesItems items ≤ maxTotalNodes →
      decodeItems (decode levels) items.length n (b ++ rest) =
        .ok (items, n + Value.nodesItems items, rest)
  | [], depth, levels, hd, hf, ho => ⟨[], rfl, fun n rest hn => rfl⟩
  | v :: items, depth, levels, hd, hf, ho => by
      simp only [Value.fitsItems, Bool.and_eq_true] at hf
      simp only [Value.orderedItems, Bool.and_eq_true] at ho
      obtain ⟨b, hb, hdec⟩ := encode_decode v depth levels hd hf.1 ho.1
      obtain ⟨bs, hbs, hdecs⟩ := encode_decode_items items depth levels hd hf.2 ho.2
      refine ⟨b ++ bs, by simp only [encodeItems, hb, hbs], fun n rest hn => ?_⟩
      simp only [Value.nodesItems] at hn ⊢
      simp only [List.length_cons, decodeItems, List.append_assoc,
        hdec n (bs ++ rest) (by omega), hdecs (n + v.nodes) rest (by omega), Nat.add_assoc]

theorem encode_decode_fields : ∀ (fields : List (Bytes × Value)) (depth levels : Nat),
    depth + levels = maxDepth + 1 → Value.fitsFields fields depth = true →
    Assoc.Sorted fields → Value.orderedFields fields = true →
    ∃ b, encodeFields fields = .ok b ∧ ∀ (object : Object) n rest,
      (∀ e ∈ object, ∀ f ∈ fields, e.1 < f.1) →
      n + Value.nodesFields fields ≤ maxTotalNodes →
      decodeFields (decode levels) fields.length object n (b ++ rest) =
        .ok (object ++ fields, n + Value.nodesFields fields, rest)
  | [], depth, levels, hd, hf, hs, ho =>
      ⟨[], rfl, fun object n rest _ hn => by
        simp only [List.length_nil, decodeFields, List.append_nil, List.nil_append]
        rfl⟩
  | (key, v) :: fields, depth, levels, hd, hf, hs, ho => by
      simp only [Value.fitsFields, Bool.and_eq_true, decide_eq_true_eq] at hf
      obtain ⟨⟨⟨hkey, -⟩, hv⟩, hrest⟩ := hf
      simp only [Value.orderedFields, Bool.and_eq_true] at ho
      obtain ⟨hhead, hsorted⟩ := List.pairwise_cons.mp hs
      have hsize : key.length < 256 ^ 4 := lt_of_le_of_lt hkey (by decide)
      obtain ⟨b, hb, hdec⟩ := encode_decode v depth levels hd hv ho.1
      obtain ⟨bs, hbs, hdecs⟩ := encode_decode_fields fields depth levels hd hrest hsorted ho.2
      refine ⟨toLE 4 key.length ++ key ++ b ++ bs, ?_, fun object n rest hlt hn => ?_⟩
      · simp only [encodeFields, encodeSized_eq hsize, hb, hbs]
      · simp only [Value.nodesFields] at hn ⊢
        -- the decoder meets the keys in order, so each goes to the end of the object
        have hgt : ∀ e ∈ object, e.1 < key := fun e he => hlt e he (key, v) List.mem_cons_self
        have hnext : ∀ e ∈ object ++ [(key, v)], ∀ f ∈ fields, e.1 < f.1 := by
          intro e he f hfm
          rcases List.mem_append.mp he with he | he
          · exact hlt e he f (List.mem_cons_of_mem _ hfm)
          · rw [List.mem_singleton.mp he]
            exact hhead f hfm
        have hread : readString maxStringBytes (toLE 4 key.length ++ key ++ b ++ bs ++ rest) =
            .ok (key, b ++ (bs ++ rest)) := by
          rw [List.append_assoc, List.append_assoc, List.append_assoc, ← List.append_assoc]
          exact readSized_append hkey hsize _
        rw [List.length_cons, decodeFields, hread]
        simp only [hdec n (bs ++ rest) (by omega), Assoc.find?_eq_none_of_gt hgt,
          Assoc.insert_of_gt hgt, hdecs _ (n + v.nodes) rest hnext (by omega), Nat.add_assoc,
          List.append_assoc, List.singleton_append]

end

theorem encodeValue_eq_ok {v : Value} {b : Bytes} (h : encodeValue v = .ok b) :
    v.valid = true ∧ encode v = .ok b := by
  unfold encodeValue at h
  cases hval : v.validate with
  | error e => rw [hval] at h; cases h
  | ok u =>
      rw [hval] at h
      exact ⟨by simp [Value.valid, hval, Except.isOk, Except.toBool], h⟩

theorem encodeValue_of_valid {v : Value} (h : v.valid = true) : encodeValue v = encode v := by
  unfold encodeValue
  unfold Value.valid at h
  cases hval : v.validate with
  | error e => rw [hval] at h; cases h
  | ok u => rfl

theorem encodeValue_ok {v : Value} (ho : v.ordered = true) (hv : v.valid = true) :
    ∃ b, encodeValue v = .ok b := by
  obtain ⟨hfits, -⟩ := (Value.valid_iff v).mp hv
  obtain ⟨b, hb, -⟩ := encode_decode v 0 (maxDepth + 1) (Nat.zero_add _) hfits ho
  exact ⟨b, by rw [encodeValue_of_valid hv, hb]⟩

theorem decodeValue_of_encodeValue {v : Value} {b : Bytes} (ho : v.ordered = true)
    (h : encodeValue v = .ok b) : decodeValue b = .ok v := by
  obtain ⟨hv, hb⟩ := encodeValue_eq_ok h
  obtain ⟨hfits, hnodes⟩ := (Value.valid_iff v).mp hv
  obtain ⟨b', hb', hdec⟩ := encode_decode v 0 (maxDepth + 1) (Nat.zero_add _) hfits ho
  rw [hb] at hb'
  cases hb'
  have hroot := hdec 0 [] (by omega)
  rw [List.append_nil] at hroot
  simp only [decodeValue, hroot, ne_eq, not_true_eq_false, if_false, Value.checked_eq hv]

/-- Every value that `validate` accepts is encoded, and decoded to itself. The fields of an
    object are in key order in every `Value`: they are a `std::map`. -/
theorem decodeValue_encodeValue (v : Value) (ho : v.ordered = true) (hv : v.valid = true) :
    ∃ b, encodeValue v = .ok b ∧ decodeValue b = .ok v := by
  obtain ⟨b, hb⟩ := encodeValue_ok ho hv
  exact ⟨b, hb, decodeValue_of_encodeValue ho hb⟩

/-- An object with a nested array, both integer kinds and a double. -/
def sampleValue : Value :=
  .object
    [(utf8 "items", .array [.null, .boolean true, .signedInteger (-1), .unsignedInteger maxU64]),
      (utf8 "level", .double ⟨0x3ff8000000000000, by decide, by decide⟩),
      (utf8 "name", .string (utf8 "lamp"))]

theorem decodeValue_encodeValue_sample :
    sampleValue.ordered = true ∧ sampleValue.valid = true ∧
      ∃ b, encodeValue sampleValue = .ok b ∧ decodeValue b = .ok sampleValue :=
  ⟨by decide +kernel, by decide +kernel,
    decodeValue_encodeValue sampleValue (by decide +kernel) (by decide +kernel)⟩

end LiquidLayer
