/-
  Which accepted byte strings are the canonical encoding of the value they decode to.

  The decoder builds a sorted map and normalises zeros while it reads, so it forgets the order
  in which the keys came and the sign of a zero. A `Wire` is the tree that the bytes spell
  before that happens.

  * `decode_spells`: whatever the decoder accepts is the spelling of a `Wire`, and the result
    is that tree's value.
  * `spelling_inj`: a byte string spells at most one tree.
  * `encodeValue_decodeValue_iff`: an accepted byte string is what `encode_value` writes for
    its value if and only if the tree it spells lists the keys of every object in strictly
    increasing order and has no double `-0.0`.
-/
import LiquidLayer.Value.Codec

namespace LiquidLayer

open ValueLimits

/-- What the bytes of an encoding say, field by field in the order of the bytes. -/
inductive Wire where
  | null
  | boolean (value : Bool)
  | signedInteger (value : Int64)
  | unsignedInteger (value : UInt64)
  | double (bits : UInt64) (finite : isfinite (normaliseZero bits) = true)
  | string (text : Bytes)
  | bytes (data : Bytes)
  | array (items : List Wire)
  | object (fields : List (Bytes × Wire))

namespace Wire

/-- A length field and the bytes it counts. -/
def counted (data : Bytes) : Bytes := toLE 4 data.length ++ data

mutual

/-- The bytes that spell the tree. -/
def spelling : Wire → Bytes
  | .null => tagByte .null
  | .boolean b => tagByte (if b then .true else .false)
  | .signedInteger i => tagByte .signedInteger ++ appendU64 i.toUInt64
  | .unsignedInteger u => tagByte .unsignedInteger ++ appendU64 u
  | .double bits _ => tagByte .double ++ appendU64 bits
  | .string text => tagByte .string ++ counted text
  | .bytes data => tagByte .bytes ++ counted data
  | .array items => tagByte .array ++ (toLE 4 items.length ++ spellItems items)
  | .object fields => tagByte .object ++ (toLE 4 fields.length ++ spellFields fields)

def spellItems : List Wire → Bytes
  | [] => []
  | w :: rest => spelling w ++ spellItems rest

def spellFields : List (Bytes × Wire) → Bytes
  | [] => []
  | (key, w) :: rest => counted key ++ (spelling w ++ spellFields rest)

end

mutual

/-- Every length fits its four-byte field. -/
def sized : Wire → Prop
  | .string text => text.length < 256 ^ 4
  | .bytes data => data.length < 256 ^ 4
  | .array items => items.length < 256 ^ 4 ∧ sizedItems items
  | .object fields => fields.length < 256 ^ 4 ∧ sizedFields fields
  | _ => True

def sizedItems : List Wire → Prop
  | [] => True
  | w :: rest => sized w ∧ sizedItems rest

def sizedFields : List (Bytes × Wire) → Prop
  | [] => True
  | (key, w) :: rest => key.length < 256 ^ 4 ∧ sized w ∧ sizedFields rest

end

mutual

/-- Keys in strictly increasing order in every object, and no `-0.0`. -/
def canonical : Wire → Prop
  | .double bits _ => bits ≠ negativeZero
  | .array items => canonicalItems items
  | .object fields => Assoc.Sorted fields ∧ canonicalFields fields
  | _ => True

def canonicalItems : List Wire → Prop
  | [] => True
  | w :: rest => canonical w ∧ canonicalItems rest

def canonicalFields : List (Bytes × Wire) → Prop
  | [] => True
  | (_, w) :: rest => canonical w ∧ canonicalFields rest

end

mutual

/-- The value the decoder makes of the tree. -/
def value : Wire → Value
  | .null => .null
  | .boolean b => .boolean b
  | .signedInteger i => .signedInteger i
  | .unsignedInteger u => .unsignedInteger u
  | .double bits finite => .double ⟨normaliseZero bits, finite, normaliseZero_ne bits⟩
  | .string text => .string text
  | .bytes data => .bytes data
  | .array items => .array (valueItems items)
  | .object fields => .object (valueFields [] fields)

def valueItems : List Wire → List Value
  | [] => []
  | w :: rest => value w :: valueItems rest

def valueFields : Object → List (Bytes × Wire) → Object
  | built, [] => built
  | built, (key, w) :: rest => valueFields (Assoc.insert key (value w) built) rest

end

mutual

/-- The tree that `encode` spells for a value. -/
def ofValue : Value → Wire
  | .null => .null
  | .boolean b => .boolean b
  | .signedInteger i => .signedInteger i
  | .unsignedInteger u => .unsignedInteger u
  | .double d => .double d.bits (by rw [normaliseZero, if_neg d.normalised]; exact d.finite)
  | .string text => .string text
  | .bytes data => .bytes data
  | .array items => .array (ofItems items)
  | .object fields => .object (ofFields fields)

def ofItems : List Value → List Wire
  | [] => []
  | v :: rest => ofValue v :: ofItems rest

def ofFields : List (Bytes × Value) → List (Bytes × Wire)
  | [] => []
  | (key, v) :: rest => (key, ofValue v) :: ofFields rest

end

/-! ## A byte string spells at most one tree -/

theorem counted_inj {a b r s : Bytes} (ha : a.length < 256 ^ 4) (hb : b.length < 256 ^ 4)
    (h : counted a ++ r = counted b ++ s) : a = b ∧ r = s := by
  unfold counted at h
  rw [List.append_assoc, List.append_assoc] at h
  obtain ⟨hlen, h⟩ := List.append_inj h (by simp)
  exact List.append_inj h (toLE_inj ha hb hlen)

theorem appendU64_inj {a b : UInt64} {r s : Bytes} (h : appendU64 a ++ r = appendU64 b ++ s) :
    a = b ∧ r = s := by
  obtain ⟨hword, h⟩ := List.append_inj h (by simp [appendU64])
  have hlt : ∀ u : UInt64, u.toNat < 256 ^ 8 := fun u => by
    have := u.toNat_lt
    norm_num at this ⊢
    exact this
  exact ⟨UInt64.toNat.inj (toLE_inj (hlt a) (hlt b) hword), h⟩

theorem tagByte_inj {t u : ValueTag} {r s : Bytes} (h : tagByte t ++ r = tagByte u ++ s) :
    t = u ∧ r = s := by
  obtain ⟨htag, h⟩ := List.append_inj h (by simp [tagByte])
  have hcode := toLE_inj t.code_lt u.code_lt htag
  have htag := congrArg ValueTag.ofCode hcode
  simp only [ValueTag.ofCode_code, Option.some.injEq] at htag
  exact ⟨htag, h⟩

/-- The tag a tree starts with. -/
def tag : Wire → ValueTag
  | .null => .null
  | .boolean false => .false
  | .boolean true => .true
  | .signedInteger _ => .signedInteger
  | .unsignedInteger _ => .unsignedInteger
  | .double _ _ => .double
  | .string _ => .string
  | .bytes _ => .bytes
  | .array _ => .array
  | .object _ => .object

/-- What follows the tag. -/
def body : Wire → Bytes
  | .null | .boolean _ => []
  | .signedInteger i => appendU64 i.toUInt64
  | .unsignedInteger u => appendU64 u
  | .double bits _ => appendU64 bits
  | .string text => counted text
  | .bytes data => counted data
  | .array items => toLE 4 items.length ++ spellItems items
  | .object fields => toLE 4 fields.length ++ spellFields fields

theorem spelling_eq (w : Wire) : w.spelling = tagByte w.tag ++ w.body := by
  cases w with
  | boolean b => cases b <;> rfl
  | _ => simp only [spelling, tag, body, List.append_nil]

mutual

theorem spelling_inj : ∀ (w w' : Wire) (r s : Bytes), w.sized → w'.sized →
    w.spelling ++ r = w'.spelling ++ s → w = w' ∧ r = s
  | w, w', r, s, hw, hw', h => by
      rw [spelling_eq, spelling_eq, List.append_assoc, List.append_assoc] at h
      obtain ⟨htag, h⟩ := tagByte_inj h
      match w, w', hw, hw', htag, h with
      | .null, .null, _, _, _, h => exact ⟨rfl, h⟩
      | .boolean false, .boolean false, _, _, _, h => exact ⟨rfl, h⟩
      | .boolean true, .boolean true, _, _, _, h => exact ⟨rfl, h⟩
      | .signedInteger a, .signedInteger b, _, _, _, h =>
          obtain ⟨hbits, h⟩ := appendU64_inj h
          have hi : a = b := by
            rw [← Int64.toInt64_toUInt64 a, hbits, Int64.toInt64_toUInt64]
          exact ⟨by rw [hi], h⟩
      | .unsignedInteger a, .unsignedInteger b, _, _, _, h =>
          obtain ⟨hbits, h⟩ := appendU64_inj h
          exact ⟨by rw [hbits], h⟩
      | .double a _, .double b _, _, _, _, h =>
          obtain ⟨rfl, hrest⟩ := appendU64_inj h
          exact ⟨rfl, hrest⟩
      | .string a, .string b, ha, hb, _, h =>
          obtain ⟨htext, h⟩ := counted_inj ha hb h
          exact ⟨by rw [htext], h⟩
      | .bytes a, .bytes b, ha, hb, _, h =>
          obtain ⟨hdata, h⟩ := counted_inj ha hb h
          exact ⟨by rw [hdata], h⟩
      | .array a, .array b, ha, hb, _, h =>
          simp only [body, List.append_assoc] at h
          obtain ⟨hlen, h⟩ := List.append_inj h (by simp)
          obtain ⟨hitems, h⟩ := spellItems_inj a b r s (toLE_inj ha.1 hb.1 hlen) ha.2 hb.2 h
          exact ⟨by rw [hitems], h⟩
      | .object a, .object b, ha, hb, _, h =>
          simp only [body, List.append_assoc] at h
          obtain ⟨hlen, h⟩ := List.append_inj h (by simp)
          obtain ⟨hfields, h⟩ := spellFields_inj a b r s (toLE_inj ha.1 hb.1 hlen) ha.2 hb.2 h
          exact ⟨by rw [hfields], h⟩

theorem spellItems_inj : ∀ (a b : List Wire) (r s : Bytes), a.length = b.length →
    sizedItems a → sizedItems b → spellItems a ++ r = spellItems b ++ s → a = b ∧ r = s
  | [], [], r, s, _, _, _, h => ⟨rfl, h⟩
  | [], _ :: _, _, _, hlen, _, _, _ => by cases hlen
  | _ :: _, [], _, _, hlen, _, _, _ => by cases hlen
  | v :: a, w :: b, r, s, hlen, ha, hb, h => by
      simp only [spellItems, List.append_assoc] at h
      obtain ⟨rfl, htail⟩ := spelling_inj v w _ _ ha.1 hb.1 h
      obtain ⟨rfl, hrest⟩ := spellItems_inj a b r s (Nat.succ.inj hlen) ha.2 hb.2 htail
      exact ⟨rfl, hrest⟩

theorem spellFields_inj : ∀ (a b : List (Bytes × Wire)) (r s : Bytes), a.length = b.length →
    sizedFields a → sizedFields b → spellFields a ++ r = spellFields b ++ s → a = b ∧ r = s
  | [], [], r, s, _, _, _, h => ⟨rfl, h⟩
  | [], _ :: _, _, _, hlen, _, _, _ => by cases hlen
  | _ :: _, [], _, _, hlen, _, _, _ => by cases hlen
  | (k, v) :: a, (l, w) :: b, r, s, hlen, ha, hb, h => by
      simp only [spellFields, List.append_assoc] at h
      obtain ⟨rfl, hchild⟩ := counted_inj ha.1 hb.1 h
      obtain ⟨rfl, htail⟩ := spelling_inj v w _ _ ha.2.1 hb.2.1 hchild
      obtain ⟨rfl, hrest⟩ := spellFields_inj a b r s (Nat.succ.inj hlen) ha.2.2 hb.2.2 htail
      exact ⟨rfl, hrest⟩

end

/-! ## Values and the trees they are encoded as -/

theorem length_ofItems (items : List Value) : (ofItems items).length = items.length := by
  induction items with
  | nil => rfl
  | cons v items ih => simp only [ofItems, List.length_cons, ih]

theorem length_ofFields (fields : Object) : (ofFields fields).length = fields.length := by
  induction fields with
  | nil => rfl
  | cons f fields ih => simp only [ofFields, List.length_cons, ih]

theorem mem_ofFields {fields : Object} {f : Bytes × Wire} (h : f ∈ ofFields fields) :
    ∃ v, (f.1, v) ∈ fields := by
  induction fields with
  | nil => cases h
  | cons e fields ih =>
      rcases List.mem_cons.mp h with rfl | h
      · exact ⟨e.2, List.mem_cons_self⟩
      · obtain ⟨v, hv⟩ := ih h
        exact ⟨v, List.mem_cons_of_mem _ hv⟩

theorem sorted_ofFields {fields : Object} (h : Assoc.Sorted fields) :
    Assoc.Sorted (ofFields fields) := by
  induction fields with
  | nil => exact List.Pairwise.nil
  | cons e fields ih =>
      obtain ⟨hhead, htail⟩ := List.pairwise_cons.mp h
      refine List.pairwise_cons.mpr ⟨fun f hf => ?_, ih htail⟩
      obtain ⟨v, hv⟩ := mem_ofFields hf
      exact hhead _ hv

mutual

/-- `encode` writes the spelling of the value's own tree. -/
theorem encode_ofValue : ∀ (v : Value) (depth : Nat), v.fits depth = true →
    (ofValue v).sized ∧ encode v = .ok (ofValue v).spelling
  | .null, _, _ => ⟨trivial, rfl⟩
  | .boolean _, _, _ => ⟨trivial, rfl⟩
  | .signedInteger _, _, _ => ⟨trivial, rfl⟩
  | .unsignedInteger _, _, _ => ⟨trivial, rfl⟩
  | .double _, _, _ => ⟨trivial, rfl⟩
  | .string text, depth, h => by
      simp only [Value.fits, Bool.and_eq_true, decide_eq_true_eq] at h
      have hsize : text.length < 256 ^ 4 := lt_of_le_of_lt h.1.2 (by decide)
      exact ⟨hsize, by simp only [encode, encodeSized_eq hsize, ofValue, spelling, counted]⟩
  | .bytes data, depth, h => by
      simp only [Value.fits, Bool.and_eq_true, decide_eq_true_eq] at h
      have hsize : data.length < 256 ^ 4 := lt_of_le_of_lt h.2 (by decide)
      exact ⟨hsize, by simp only [encode, encodeSized_eq hsize, ofValue, spelling, counted]⟩
  | .array items, depth, h => by
      simp only [Value.fits, Bool.and_eq_true, decide_eq_true_eq] at h
      have hsize : items.length < 256 ^ 4 := lt_of_le_of_lt h.1.2 (by decide)
      obtain ⟨word, hword, hbytes⟩ := checkedSize_eq hsize
      obtain ⟨hs, he⟩ := encode_ofItems items (depth + 1) h.2
      refine ⟨⟨by rwa [length_ofItems], hs⟩, ?_⟩
      simp only [encode, hword, he, hbytes, ofValue, spelling, length_ofItems,
        List.append_assoc]
  | .object fields, depth, h => by
      simp only [Value.fits, Bool.and_eq_true, decide_eq_true_eq] at h
      have hsize : fields.length < 256 ^ 4 := lt_of_le_of_lt h.1.2 (by decide)
      obtain ⟨word, hword, hbytes⟩ := checkedSize_eq hsize
      obtain ⟨hs, he⟩ := encode_ofFields fields (depth + 1) h.2
      refine ⟨⟨by rwa [length_ofFields], hs⟩, ?_⟩
      simp only [encode, hword, he, hbytes, ofValue, spelling, length_ofFields,
        List.append_assoc]

theorem encode_ofItems : ∀ (items : List Value) (depth : Nat),
    Value.fitsItems items depth = true →
    sizedItems (ofItems items) ∧ encodeItems items = .ok (spellItems (ofItems items))
  | [], _, _ => ⟨trivial, rfl⟩
  | v :: items, depth, h => by
      simp only [Value.fitsItems, Bool.and_eq_true] at h
      obtain ⟨hs, he⟩ := encode_ofValue v depth h.1
      obtain ⟨hss, hes⟩ := encode_ofItems items depth h.2
      exact ⟨⟨hs, hss⟩, by simp only [encodeItems, he, hes, ofItems, spellItems]⟩

theorem encode_ofFields : ∀ (fields : List (Bytes × Value)) (depth : Nat),
    Value.fitsFields fields depth = true →
    sizedFields (ofFields fields) ∧ encodeFields fields = .ok (spellFields (ofFields fields))
  | [], _, _ => ⟨trivial, rfl⟩
  | (key, v) :: fields, depth, h => by
      simp only [Value.fitsFields, Bool.and_eq_true, decide_eq_true_eq] at h
      have hsize : key.length < 256 ^ 4 := lt_of_le_of_lt h.1.1.1 (by decide)
      obtain ⟨hs, he⟩ := encode_ofValue v depth h.1.2
      obtain ⟨hss, hes⟩ := encode_ofFields fields depth h.2
      refine ⟨⟨hsize, hs, hss⟩, ?_⟩
      simp only [encodeFields, encodeSized_eq hsize, he, hes, ofFields, spellFields, counted,
        List.append_assoc]

end

mutual

theorem canonical_ofValue : ∀ v : Value, v.ordered = true → (ofValue v).canonical
  | .null, _ | .boolean _, _ | .signedInteger _, _ | .unsignedInteger _, _ | .string _, _
  | .bytes _, _ => trivial
  | .double d, _ => d.normalised
  | .array items, h => canonical_ofItems items h
  | .object fields, h => by
      simp only [Value.ordered, Bool.and_eq_true, decide_eq_true_eq] at h
      exact ⟨sorted_ofFields h.1, canonical_ofFields fields h.2⟩

theorem canonical_ofItems : ∀ items : List Value, Value.orderedItems items = true →
    canonicalItems (ofItems items)
  | [], _ => trivial
  | v :: items, h => by
      simp only [Value.orderedItems, Bool.and_eq_true] at h
      exact ⟨canonical_ofValue v h.1, canonical_ofItems items h.2⟩

theorem canonical_ofFields : ∀ fields : List (Bytes × Value), Value.orderedFields fields = true →
    canonicalFields (ofFields fields)
  | [], _ => trivial
  | (_, v) :: fields, h => by
      simp only [Value.orderedFields, Bool.and_eq_true] at h
      exact ⟨canonical_ofValue v h.1, canonical_ofFields fields h.2⟩

end

/-- Insertion keeps the objects inside the fields in key order. -/
theorem orderedFields_insert {key : Bytes} {v : Value} {fields : Object}
    (hv : v.ordered = true) (h : Value.orderedFields fields = true) :
    Value.orderedFields (Assoc.insert key v fields) = true := by
  induction fields with
  | nil => simp only [Assoc.insert, Value.orderedFields, hv, Bool.and_self]
  | cons e fields ih =>
      obtain ⟨k, w⟩ := e
      simp only [Value.orderedFields, Bool.and_eq_true] at h
      simp only [Assoc.insert]
      split
      · simp only [Value.orderedFields, hv, h.1, h.2, Bool.and_self]
      · split
        · simp only [Value.orderedFields, hv, h.2, Bool.and_self]
        · simp only [Value.orderedFields, h.1, ih h.2, Bool.and_self]

mutual

theorem ordered_value : ∀ w : Wire, w.value.ordered = true
  | .null | .boolean _ | .signedInteger _ | .unsignedInteger _ | .string _ | .bytes _
  | .double _ _ => rfl
  | .array items => ordered_valueItems items
  | .object fields => by
      obtain ⟨hs, ho⟩ := ordered_valueFields fields [] List.Pairwise.nil rfl
      simp only [value, Value.ordered, hs, ho, decide_true, Bool.and_self]

theorem ordered_valueItems : ∀ items : List Wire, Value.orderedItems (valueItems items) = true
  | [] => rfl
  | w :: items => by
      simp only [valueItems, Value.orderedItems, ordered_value w, ordered_valueItems items,
        Bool.and_self]

theorem ordered_valueFields : ∀ (fields : List (Bytes × Wire)) (built : Object),
    Assoc.Sorted built → Value.orderedFields built = true →
    Assoc.Sorted (valueFields built fields) ∧
      Value.orderedFields (valueFields built fields) = true
  | [], _, hs, ho => ⟨hs, ho⟩
  | (_, w) :: fields, _, hs, ho =>
      ordered_valueFields fields _ (Assoc.sorted_insert hs _ _)
        (orderedFields_insert (ordered_value w) ho)

end

theorem ofFields_append (a b : Object) : ofFields (a ++ b) = ofFields a ++ ofFields b := by
  induction a with
  | nil => rfl
  | cons e a ih =>
      obtain ⟨key, v⟩ := e
      simp only [List.cons_append, ofFields, ih]

mutual

/-- A canonical tree is the one its value is encoded as. -/
theorem ofValue_value : ∀ w : Wire, w.canonical → ofValue w.value = w
  | .null, _ | .boolean _, _ | .signedInteger _, _ | .unsignedInteger _, _ | .string _, _
  | .bytes _, _ => rfl
  | .double bits finite, h => by
      have hbits : normaliseZero bits = bits := if_neg h
      simp only [value, ofValue, hbits]
  | .array items, h => by simp only [value, ofValue, ofItems_valueItems items h]
  | .object fields, h => by
      have := ofFields_valueFields fields [] h.1 h.2 nofun
      simp only [value, ofValue, this, ofFields, List.nil_append]

theorem ofItems_valueItems : ∀ items : List Wire, canonicalItems items →
    ofItems (valueItems items) = items
  | [], _ => rfl
  | w :: items, h => by
      simp only [valueItems, ofItems, ofValue_value w h.1, ofItems_valueItems items h.2]

theorem ofFields_valueFields : ∀ (fields : List (Bytes × Wire)) (built : Object),
    Assoc.Sorted fields → canonicalFields fields → (∀ e ∈ built, ∀ f ∈ fields, e.1 < f.1) →
    ofFields (valueFields built fields) = ofFields built ++ fields
  | [], built, _, _, _ => by simp only [valueFields, List.append_nil]
  | (key, w) :: fields, built, hs, hc, hlt => by
      obtain ⟨hhead, htail⟩ := List.pairwise_cons.mp hs
      have hgt : ∀ e ∈ built, e.1 < key := fun e he => hlt e he (key, w) List.mem_cons_self
      have hnext : ∀ e ∈ built ++ [(key, w.value)], ∀ f ∈ fields, e.1 < f.1 := by
        intro e he f hf
        rcases List.mem_append.mp he with he | he
        · exact hlt e he f (List.mem_cons_of_mem _ hf)
        · rw [List.mem_singleton.mp he]
          exact hhead f hf
      simp only [valueFields, Assoc.insert_of_gt hgt]
      rw [ofFields_valueFields fields _ htail hc.2 hnext, ofFields_append]
      simp only [ofFields, ofValue_value w hc.1, List.append_assoc, List.singleton_append]

end

/-! ## What the decoder accepts -/

theorem readSized_eq_ok {limit : Nat} {what : String} {input data rest : Bytes}
    (h : readSized limit what input = .ok (data, rest)) :
    data.length < 256 ^ 4 ∧ input = counted data ++ rest := by
  unfold readSized at h
  cases hr : readU32 input with
  | error e => rw [hr] at h; cases h
  | ok p =>
      obtain ⟨size, tail⟩ := p
      rw [hr] at h
      simp only at h
      split at h
      · cases h
      · obtain ⟨rfl, hlt⟩ := takeLE_eq_ok hr
        obtain ⟨rfl, rfl⟩ := takeBytes_eq_ok h
        exact ⟨hlt, by rw [counted, List.append_assoc]⟩

/-- A decoder that only accepts spellings, and returns the value of the tree they spell. -/
def Spells (child : Nat → Bytes → Decoded Value) : Prop :=
  ∀ {n n' input rest v}, child n input = .ok (v, n', rest) →
    ∃ w : Wire, w.sized ∧ w.value = v ∧ input = w.spelling ++ rest

theorem decodeItems_spells {child : Nat → Bytes → Decoded Value} (hchild : Spells child)
    {count n n' : Nat} {input rest : Bytes} {items : List Value}
    (h : decodeItems child count n input = .ok (items, n', rest)) :
    ∃ ws, ws.length = count ∧ sizedItems ws ∧ valueItems ws = items ∧
      input = spellItems ws ++ rest := by
  induction count generalizing n input items with
  | zero =>
      cases h
      exact ⟨[], rfl, trivial, rfl, rfl⟩
  | succ count ih =>
      simp only [decodeItems] at h
      split at h
      · cases h
      · next v m tail hv =>
          split at h
          · cases h
          · next vs m' tail' hvs =>
              cases h
              obtain ⟨w, hs, rfl, rfl⟩ := hchild hv
              obtain ⟨ws, hlen, hss, rfl, rfl⟩ := ih hvs
              exact ⟨w :: ws, by rw [List.length_cons, hlen], ⟨hs, hss⟩, rfl, by
                rw [spellItems, List.append_assoc]⟩

theorem decodeFields_spells {child : Nat → Bytes → Decoded Value} (hchild : Spells child)
    {count n n' : Nat} {built fields : Object} {input rest : Bytes}
    (h : decodeFields child count built n input = .ok (fields, n', rest)) :
    ∃ ws, ws.length = count ∧ sizedFields ws ∧ valueFields built ws = fields ∧
      input = spellFields ws ++ rest := by
  induction count generalizing n built input with
  | zero =>
      cases h
      exact ⟨[], rfl, trivial, rfl, rfl⟩
  | succ count ih =>
      simp only [decodeFields] at h
      split at h
      · cases h
      · next key tail hkey =>
          split at h
          · cases h
          · next v m tail' hv =>
              split at h
              · cases h
              · obtain ⟨hlen, rfl⟩ := readSized_eq_ok hkey
                obtain ⟨w, hs, rfl, rfl⟩ := hchild hv
                obtain ⟨ws, rfl, hss, rfl, rfl⟩ := ih h
                exact ⟨(key, w) :: ws, rfl, ⟨hlen, hs, hss⟩, rfl, by
                  rw [spellFields, List.append_assoc, List.append_assoc]⟩

theorem readU64_eq_ok {bits : Nat} {input rest : Bytes} (h : readU64 input = .ok (bits, rest)) :
    input = appendU64 (UInt64.ofNat bits) ++ rest := by
  obtain ⟨rfl, hlt⟩ := takeLE_eq_ok h
  rw [appendU64, UInt64.toNat_ofNat', Nat.mod_eq_of_lt (by norm_num at hlt ⊢; exact hlt)]

theorem checked_eq_ok {v w : Value} (h : v.checked = .ok w) : w = v := by
  unfold Value.checked at h
  split at h
  · cases h
  · exact (Except.ok.inj h).symm

theorem decodeTagged_spells {child : Nat → Bytes → Decoded Value} (hchild : Spells child)
    {t : ValueTag} {n n' : Nat} {input rest : Bytes} {v : Value}
    (h : decodeTagged child t n input = .ok (v, n', rest)) :
    ∃ w : Wire, w.sized ∧ w.value = v ∧ w.tag = t ∧ input = w.body ++ rest := by
  cases t with
  | null => cases h; exact ⟨.null, trivial, rfl, rfl, rfl⟩
  | false => cases h; exact ⟨.boolean false, trivial, rfl, rfl, rfl⟩
  | true => cases h; exact ⟨.boolean true, trivial, rfl, rfl, rfl⟩
  | signedInteger =>
      simp only [decodeTagged] at h
      split at h
      · cases h
      · next bits tail hr =>
          cases h
          exact ⟨.signedInteger (UInt64.ofNat bits).toInt64, trivial, rfl, rfl, readU64_eq_ok hr⟩
  | unsignedInteger =>
      simp only [decodeTagged] at h
      split at h
      · cases h
      · next bits tail hr =>
          cases h
          exact ⟨.unsignedInteger (UInt64.ofNat bits), trivial, rfl, rfl, readU64_eq_ok hr⟩
  | double =>
      simp only [decodeTagged] at h
      split at h
      · cases h
      · next bits tail hr =>
          split at h
          · cases h
          · next d hd =>
              cases h
              unfold Value.ofDouble at hd
              split at hd
              · next hf =>
                  cases hd
                  exact ⟨.double (UInt64.ofNat bits) hf, trivial, rfl, rfl, readU64_eq_ok hr⟩
              · cases hd
  | string =>
      simp only [decodeTagged] at h
      split at h
      · cases h
      · next text tail hr =>
          split at h
          · cases h
          · next s hs =>
              cases h
              obtain ⟨hlen, rfl⟩ := readSized_eq_ok hr
              exact ⟨.string text, hlen, (checked_eq_ok hs).symm, rfl, rfl⟩
  | bytes =>
      simp only [decodeTagged] at h
      split at h
      · cases h
      · next data tail hr =>
          split at h
          · cases h
          · next s hs =>
              cases h
              obtain ⟨hlen, rfl⟩ := readSized_eq_ok hr
              exact ⟨.bytes data, hlen, (checked_eq_ok hs).symm, rfl, rfl⟩
  | array =>
      simp only [decodeTagged] at h
      split at h
      · cases h
      · next count tail hr =>
          split at h
          · cases h
          · split at h
            · cases h
            · next items m tail' hi =>
                cases h
                obtain ⟨rfl, hlt⟩ := takeLE_eq_ok hr
                obtain ⟨ws, rfl, hs, rfl, rfl⟩ := decodeItems_spells hchild hi
                exact ⟨.array ws, ⟨hlt, hs⟩, rfl, rfl, by rw [body, List.append_assoc]⟩
  | object =>
      simp only [decodeTagged] at h
      split at h
      · cases h
      · next count tail hr =>
          split at h
          · cases h
          · split at h
            · cases h
            · next fields m tail' hi =>
                cases h
                obtain ⟨rfl, hlt⟩ := takeLE_eq_ok hr
                obtain ⟨ws, rfl, hs, rfl, rfl⟩ := decodeFields_spells hchild hi
                exact ⟨.object ws, ⟨hlt, hs⟩, rfl, rfl, by rw [body, List.append_assoc]⟩

/-- Induction on the levels that are left: a child is decoded one level deeper. -/
theorem decode_spells (levels : Nat) : Spells (decode levels) := by
  induction levels with
  | zero => intro n n' input rest v h; cases h
  | succ levels ih =>
      intro n n' input rest v h
      simp only [decode] at h
      split at h
      · cases h
      · split at h
        · cases h
        · next code tail hr =>
            split at h
            · cases h
            · next t ht =>
                obtain ⟨rfl, -⟩ := takeLE_eq_ok hr
                obtain ⟨w, hs, hv, rfl, rfl⟩ := decodeTagged_spells ih h
                refine ⟨w, hs, hv, ?_⟩
                rw [spelling_eq, tagByte, ValueTag.code_of_ofCode ht, List.append_assoc]

theorem decodeValue_spells {b : Bytes} {v : Value} (h : decodeValue b = .ok v) :
    ∃ w : Wire, w.sized ∧ w.value = v ∧ w.spelling = b := by
  unfold decodeValue at h
  split at h
  · cases h
  · next u m rest hdec =>
      split at h
      · cases h
      · next hrest =>
          obtain ⟨w, hs, rfl, rfl⟩ := decode_spells _ hdec
          rw [not_not.mp hrest, List.append_nil]
          exact ⟨w, hs, (checked_eq_ok h).symm, rfl⟩

end Wire

theorem valid_of_decodeValue {b : Bytes} {v : Value} (h : decodeValue b = .ok v) :
    v.valid = true := by
  unfold decodeValue at h
  split at h
  · cases h
  · split at h
    · cases h
    · next u m rest hdec hrest =>
        unfold Value.checked at h
        split at h
        · cases h
        · next hv =>
            cases h
            simp [Value.valid, hv, Except.isOk, Except.toBool]

/-- An accepted byte string is the encoding of its value exactly when the tree it spells is
    canonical: no other deviation from `encode` survives the decoder. -/
theorem encodeValue_decodeValue_iff {b : Bytes} {v : Value} (h : decodeValue b = .ok v) :
    encodeValue v = .ok b ↔ ∀ w : Wire, w.sized → w.spelling = b → w.canonical := by
  have hvalid := valid_of_decodeValue h
  obtain ⟨hfits, -⟩ := (Value.valid_iff v).mp hvalid
  obtain ⟨hsized, henc⟩ := Wire.encode_ofValue v 0 hfits
  rw [encodeValue_of_valid hvalid, henc]
  obtain ⟨w, hw, rfl, rfl⟩ := Wire.decodeValue_spells h
  constructor
  · intro he w' hw' hspell
    have hsame : w'.spelling ++ [] = (Wire.ofValue w.value).spelling ++ [] := by
      rw [hspell, Except.ok.inj he]
    rw [(Wire.spelling_inj w' _ [] [] hw' hsized hsame).1]
    exact Wire.canonical_ofValue _ (Wire.ordered_value w)
  · intro hcanon
    rw [Wire.ofValue_value w (hcanon w hw rfl)]

/-- The object with keys `b` and `a`, in this order. -/
def swappedKeys : Bytes := [9, 2, 0, 0, 0, 1, 0, 0, 0, 98, 0, 1, 0, 0, 0, 97, 0]

/-- The object with keys `a` and `b`, in this order. -/
def sortedKeys : Bytes := [9, 2, 0, 0, 0, 1, 0, 0, 0, 97, 0, 1, 0, 0, 0, 98, 0]

theorem encodeValue_decodeValue_sorted :
    decodeValue sortedKeys = .ok (.object [([97], .null), ([98], .null)]) ∧
      (encodeValue (.object [([97], .null), ([98], .null)]) = .ok sortedKeys ↔
        ∀ w : Wire, w.sized → w.spelling = sortedKeys → w.canonical) :=
  ⟨by decide +kernel, encodeValue_decodeValue_iff (by decide +kernel)⟩

/-- Two byte strings are accepted for the same value; the encoder writes one of them. -/
theorem decodeValue_not_canonical :
    ¬ ∀ (b : Bytes) (v : Value), decodeValue b = .ok v → encodeValue v = .ok b := by
  intro h
  have hdec : decodeValue swappedKeys = .ok (.object [([97], .null), ([98], .null)]) := by
    decide +kernel
  have henc : encodeValue (.object [([97], .null), ([98], .null)]) = .ok sortedKeys := by
    decide +kernel
  have hsame := (h swappedKeys _ hdec).symm.trans henc
  exact absurd (Except.ok.inj hsame) (by decide)

end LiquidLayer
