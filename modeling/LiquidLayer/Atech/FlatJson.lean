/-
  The JSON lookup of the serial action bus (`findKey` and `getString` of atech_actions.h).

  A C string is the list of the bytes at a pointer. The first zero ends it, wherever the list
  does, and none of the functions looks behind it. `findKey` searches the text for the key
  between quotes and takes what follows for the value. It does not ask for the colon, and every
  quote of the text may be the second one of a place it finds: those around a key, those around a
  value, and those that are escaped inside of one.

  * `places`: the quotes of the text of an object, in their order, with what is in front of them
    and what reading on from there gives.
  * `getString_render`: `getString` reads at the first place that is named.
  * `getString_exact_iff`: it is the value of the key exactly if the key is clear (`Clear`), or
    if what is read in its place happens to be its value (`Coincides`). The object and the key
    have no zeros, as they would end the text in the middle.
  * `clear_of_plain`: a key is clear if nothing else in the object looks like it.
-/
import LiquidLayer.Basic

namespace LiquidLayer

namespace AtechActions

/-! ## The lookup -/

/-- `strstr`: the text from the first place where the pattern is, in front of its end. -/
def strstr (pattern : Bytes) : Bytes → Option Bytes
  | [] => if pattern = [] then some [] else none
  | c :: text =>
      if pattern <+: c :: text then some (c :: text)
      else if c = 0 then none
      else strstr pattern text

/-- The bytes that are passed over in front of a value. -/
def isBlank (c : UInt8) : Bool := c == 32 || c == 58

/-- `"key"`, printed into 48 bytes; `%s` ends with the key. -/
def keyPattern (key : Bytes) : Bytes := (34 :: key.takeWhile (· ≠ 0) ++ [34]).take 47

def findKey (json : Option Bytes) (key : Bytes) : Option Bytes :=
  match json with
  | none => none
  | some json =>
      (strstr (keyPattern key) json).map fun p =>
        (p.drop (keyPattern key).length).dropWhile isBlank

/-- The loop of `getString`, with room for so many bytes. -/
def readString : Nat → Bytes → Bytes
  | 0, _ => []
  | _ + 1, [] => []
  | room + 1, c :: rest =>
      if c = 0 ∨ c = 34 then []
      else if c = 92 then
        match rest with
        | [] => [c]
        -- a backslash at the end of the text is kept, and the loop ends behind it
        | d :: rest => if d = 0 then [c] else d :: readString room rest
      else c :: readString room rest

/-- `none` is `false`; otherwise what is in `out`. -/
def getString (json : Option Bytes) (key : Bytes) (n : Nat) : Option Bytes :=
  match findKey json key with
  | some (34 :: p) => if n = 0 then none else some (readString (n - 1) p)
  | _ => none

/-! ## Texts of objects -/

def escapeByte (c : UInt8) : Bytes := if c = 34 ∨ c = 92 then [92, c] else [c]

def escape (s : Bytes) : Bytes := s.flatMap escapeByte

def quoted (s : Bytes) : Bytes := 34 :: escape s ++ [34]

/-- The text behind a value. -/
def renderTail : List (Bytes × Bytes) → Bytes
  | [] => [125]
  | (key, value) :: rest => 44 :: (quoted key ++ 58 :: (quoted value ++ renderTail rest))

/-- The compact text of a flat object. -/
def render : List (Bytes × Bytes) → Bytes
  | [] => [123, 125]
  | (key, value) :: rest => 123 :: (quoted key ++ 58 :: (quoted value ++ renderTail rest))

/-! ## Places -/

/-- A quote of the text. -/
inductive Quote where
  | closesKey (key value : Bytes)
  | closesValue
  /-- It opens a string or is escaped in it: what of the string comes after it, and the byte
      behind the string. -/
  | within (rest : Bytes) (separator : UInt8)

/-- What is read after it. -/
def Quote.reading : Quote → Option Bytes
  | .closesKey _ value => some value
  | .closesValue => none
  | .within rest separator => if rest.all isBlank then some [separator] else none

structure Place where
  before : Bytes
  quote : Quote

/-- The quotes inside a string. -/
def escapedPlaces (separator : UInt8) : Bytes → Bytes → List Place
  | _, [] => []
  | before, c :: rest =>
      if c = 34 then
        ⟨before ++ [92], .within rest separator⟩ :: escapedPlaces separator (before ++ [92, 34]) rest
      else escapedPlaces separator (before ++ escapeByte c) rest

def quotedPlaces (separator : UInt8) (closing : Quote) (before s : Bytes) : List Place :=
  ⟨before, .within s separator⟩ :: (escapedPlaces separator (before ++ [34]) s ++
    [⟨before ++ 34 :: escape s, closing⟩])

/-- The byte behind a value that these entries follow. -/
def separatorOf (rest : List (Bytes × Bytes)) : UInt8 := if rest.isEmpty then 125 else 44

/-- The quotes of one entry. -/
def entryPlaces (before key value : Bytes) (rest : List (Bytes × Bytes)) : List Place :=
  quotedPlaces 58 (.closesKey key value) before key ++
    quotedPlaces (separatorOf rest) .closesValue (before ++ quoted key ++ [58]) value

def tailPlaces : Bytes → List (Bytes × Bytes) → List Place
  | _, [] => []
  | before, (key, value) :: rest =>
      entryPlaces (before ++ [44]) key value rest ++
        tailPlaces (before ++ [44] ++ quoted key ++ [58] ++ quoted value) rest

def places : List (Bytes × Bytes) → List Place
  | [] => []
  | (key, value) :: rest =>
      entryPlaces [123] key value rest ++
        tailPlaces ([123] ++ quoted key ++ [58] ++ quoted value) rest

/-- The quote in front of the key and the key are in front of the quote. -/
def Place.named (key : Bytes) (place : Place) : Bool := (34 :: key).isSuffixOf place.before

/-- The first quote that is named. -/
def firstQuote (key : Bytes) (l : List Place) : Option Quote :=
  (l.find? (Place.named key)).map Place.quote

/-- The first quote of the text with a quote and the key in front of it. -/
def firstNamed (object : List (Bytes × Bytes)) (key : Bytes) : Option Quote :=
  firstQuote key (places object)

/-- It closes the key. Of a key that the object does not have there is none, or one behind which
    there is no string. -/
def Clear (object : List (Bytes × Bytes)) (key : Bytes) : Prop :=
  match object.lookup key with
  | some own => firstNamed object key = some (.closesKey key own)
  | none => ∀ quote, firstNamed object key = some quote → quote.reading = none

/-- It is another one, and what is read behind it is the value of the key as far as there is
    room: another key has the same value, or the value is the byte behind a string. -/
def Coincides (object : List (Bytes × Bytes)) (key : Bytes) (room : Nat) : Prop :=
  ∃ quote read own, firstNamed object key = some quote ∧ quote.reading = some read ∧
    object.lookup key = some own ∧ quote ≠ .closesKey key own ∧ read.take room = own.take room

/-! ## The search -/

/-- The text behind the first quote that is named. -/
def scan (key : Bytes) : Bytes → Bytes → Option Bytes
  | _, [] => none
  | before, c :: rest =>
      if c = 34 ∧ 34 :: key <:+ before then some rest else scan key (before ++ [c]) rest

theorem strstr_none {pattern text : Bytes} (h : ¬pattern <:+: text) :
    strstr pattern text = none := by
  induction text with
  | nil =>
      unfold strstr
      rw [if_neg]
      rintro rfl
      exact h (List.infix_refl [])
  | cons c text ih =>
      unfold strstr
      rw [if_neg fun hprefix => h hprefix.isInfix]
      split
      · rfl
      · exact ih fun hinfix => h (List.infix_cons hinfix)

/-- The first occurrence is the one that is not there before its last byte is. -/
theorem strstr_first {pattern before rest : Bytes} {c : UInt8} (hzero : 0 ∉ before)
    (h : ¬(pattern ++ [c]) <:+: before ++ pattern) :
    strstr (pattern ++ [c]) (before ++ ((pattern ++ [c]) ++ rest)) =
      some (pattern ++ [c] ++ rest) := by
  induction before with
  | nil =>
      have hprefix : pattern ++ [c] <+: pattern ++ [c] ++ rest := List.prefix_append _ _
      rw [List.nil_append]
      cases htext : pattern ++ [c] ++ rest with
      | nil => simp at htext
      | cons d text =>
          unfold strstr
          rw [← htext, if_pos hprefix]
  | cons d before ih =>
      rw [List.cons_append]
      rw [List.mem_cons, not_or] at hzero
      unfold strstr
      rw [if_neg, if_neg (Ne.symm hzero.1), ih hzero.2 fun hinfix => h (List.infix_cons hinfix)]
      intro hprefix
      apply h
      have hshort : pattern ++ [c] <+: d :: (before ++ pattern) := by
        have hwhole : d :: (before ++ pattern) <+: d :: (before ++ (pattern ++ [c] ++ rest)) :=
          ⟨[c] ++ rest, by simp⟩
        refine List.prefix_of_prefix_length_le hprefix hwhole ?_
        simp
      exact hshort.isInfix

theorem strstr_scan (key before text : Bytes) (hzero : 0 ∉ before ++ text)
    (h : ¬(34 :: key ++ [34]) <:+: before) :
    (strstr (34 :: key ++ [34]) (before ++ text)).map (List.drop (34 :: key ++ [34]).length) =
      scan key before text := by
  induction text generalizing before with
  | nil =>
      rw [List.append_nil, strstr_none h]
      rfl
  | cons c text ih =>
      unfold scan
      by_cases hat : c = 34 ∧ 34 :: key <:+ before
      · obtain ⟨rfl, front, rfl⟩ := hat
        have hsplit : front ++ 34 :: key ++ 34 :: text = front ++ (34 :: key ++ [34] ++ text) := by
          simp
        have hfront : 0 ∉ front := by
          intro hmem
          simp [hmem] at hzero
        rw [if_pos ⟨rfl, List.suffix_append _ _⟩, hsplit, strstr_first hfront h, Option.map_some,
          List.drop_left]
      · rw [if_neg hat]
        have hnext : ¬(34 :: key ++ [34]) <:+: before ++ [c] := by
          rw [List.infix_concat_iff]
          rintro (hsuffix | hinfix)
          · obtain hnil | ⟨front, hfront, hnamed⟩ := List.suffix_concat_iff.mp hsuffix
            · exact List.append_ne_nil_of_right_ne_nil _ (List.cons_ne_nil _ _) hnil
            · obtain ⟨hkey, hc⟩ := List.append_inj' hfront rfl
              cases hc
              exact hat ⟨rfl, hkey ▸ hnamed⟩
          · exact h hinfix
        rw [← ih _ (by simpa using hzero) hnext, List.append_assoc]
        rfl

/-! ## Reading on -/

/-- What `getString` makes of the text behind the pattern. -/
def readAfter (room : Nat) (rest : Bytes) : Option Bytes :=
  match rest.dropWhile isBlank with
  | 34 :: p => some (readString room p)
  | _ => none

theorem escape_cons (c : UInt8) (s : Bytes) : escape (c :: s) = escapeByte c ++ escape s := rfl

theorem escapeByte_special {c : UInt8} (hc : c = 34 ∨ c = 92) : escapeByte c = [92, c] :=
  if_pos hc

theorem escapeByte_plain {c : UInt8} (hc : c ≠ 34 ∧ c ≠ 92) : escapeByte c = [c] :=
  if_neg (by tauto)

/-- A value is read back, as far as there is room. -/
theorem readString_escape (room : Nat) {value : Bytes} (hvalue : 0 ∉ value) (next : Bytes) :
    readString room (escape value ++ 34 :: next) = value.take room := by
  induction value generalizing room with
  | nil =>
      cases room with
      | zero => rfl
      | succ room =>
          show readString (room + 1) (34 :: next) = []
          unfold readString
          rw [if_pos (Or.inr rfl)]
  | cons c value ih =>
      rw [List.mem_cons, not_or] at hvalue
      cases room with
      | zero => simp [readString]
      | succ room =>
          rw [escape_cons, List.take_succ_cons]
          by_cases hc : c = 34 ∨ c = 92
          · rw [escapeByte_special hc]
            show readString (room + 1) (92 :: c :: (escape value ++ 34 :: next)) = _
            unfold readString
            rw [if_neg (by decide), if_pos rfl]
            dsimp only
            rw [if_neg (Ne.symm hvalue.1), ih _ hvalue.2]
          · rw [not_or] at hc
            rw [escapeByte_plain hc]
            show readString (room + 1) (c :: (escape value ++ 34 :: next)) = _
            unfold readString
            rw [if_neg (not_or.mpr ⟨Ne.symm hvalue.1, hc.1⟩), if_neg hc.2, ih _ hvalue.2]

/-- A byte between two quotes is read as it is. -/
theorem readString_byte (room : Nat) {c : UInt8} (hzero : c ≠ 0) (hc : c ≠ 34 ∧ c ≠ 92)
    (next : Bytes) : readString room (c :: 34 :: next) = [c].take room := by
  have hvalue : (0 : UInt8) ∉ [c] := by simpa using hzero.symm
  have hread := readString_escape room hvalue next
  rwa [escape_cons, escapeByte_plain hc] at hread

theorem readAfter_string (room : Nat) {value : Bytes} (hvalue : 0 ∉ value) (next : Bytes) :
    readAfter room (58 :: (quoted value ++ next)) = some (value.take room) := by
  have hread := readString_escape room hvalue next
  unfold readAfter quoted
  simp only [List.append_assoc, List.cons_append, List.nil_append]
  rw [List.dropWhile_cons_of_pos (by decide), List.dropWhile_cons_of_neg (by decide)]
  exact congrArg some hread

/-- Behind a value there is no string. -/
theorem readAfter_tail (room : Nat) (rest : List (Bytes × Bytes)) :
    readAfter room (renderTail rest) = none := by
  cases rest with
  | nil => rfl
  | cons entry rest => rfl

theorem isBlank_plain {c : UInt8} (h : isBlank c = true) : c ≠ 34 ∧ c ≠ 92 := by
  constructor
  · rintro rfl
    exact absurd h (by decide)
  · rintro rfl
    exact absurd h (by decide)

/-- Reading on inside a string comes to its closing quote if only blanks are left. -/
theorem readAfter_within (room : Nat) (rest next : Bytes) {separator : UInt8}
    (hnext : readString room next = [separator].take room) :
    readAfter room (escape rest ++ 34 :: next) =
      (Quote.within rest separator).reading.map (List.take room) := by
  induction rest with
  | nil =>
      show some (readString room next) = some ([separator].take room)
      rw [hnext]
  | cons c rest ih =>
      have hreading : (Quote.within (c :: rest) separator).reading =
          if isBlank c then (Quote.within rest separator).reading else none := by
        by_cases hc : isBlank c = true
        · simp [Quote.reading, hc]
        · simp [Quote.reading, hc]
      rw [escape_cons, hreading]
      cases hblank : isBlank c with
      | true =>
          rw [escapeByte_plain (isBlank_plain hblank), if_pos rfl, ← ih]
          unfold readAfter
          rw [List.append_assoc, List.singleton_append, List.dropWhile_cons_of_pos hblank]
      | false =>
          rw [if_neg Bool.false_ne_true]
          unfold readAfter
          by_cases hc : c = 34 ∨ c = 92
          · rw [escapeByte_special hc]
            rfl
          · rw [not_or] at hc
            rw [escapeByte_plain hc, List.append_assoc, List.singleton_append,
              List.dropWhile_cons_of_neg (by rw [hblank]; decide)]
            split
            · next p hp => exact absurd (List.cons.inj hp).1 hc.1
            · rfl

/-! ## The first place -/

theorem Place.named_iff {key : Bytes} {place : Place} :
    place.named key = true ↔ 34 :: key <:+ place.before := List.isSuffixOf_iff_suffix

section First

variable (key : Bytes) (room : Nat)

theorem firstQuote_cons (place : Place) (l : List Place) :
    firstQuote key (place :: l) =
      if place.named key then some place.quote else firstQuote key l := by
  unfold firstQuote
  rw [List.find?_cons]
  cases place.named key <;> rfl

theorem firstQuote_append (l l' : List Place) :
    firstQuote key (l ++ l') = (firstQuote key l).or (firstQuote key l') := by
  induction l with
  | nil => rfl
  | cons place l ih =>
      rw [List.cons_append, firstQuote_cons, firstQuote_cons, ih]
      split <;> rfl

/-- What is read at the first of these places that is named, or else. -/
def pick (l : List Place) (otherwise : Option Bytes) : Option Bytes :=
  match firstQuote key l with
  | some quote => quote.reading.map (List.take room)
  | none => otherwise

theorem pick_cons (place : Place) (l : List Place) (o : Option Bytes) :
    pick key room (place :: l) o =
      if place.named key then place.quote.reading.map (List.take room)
      else pick key room l o := by
  unfold pick
  rw [firstQuote_cons]
  cases place.named key <;> rfl

theorem pick_append (l l' : List Place) (o : Option Bytes) :
    pick key room (l ++ l') o = pick key room l (pick key room l' o) := by
  unfold pick
  rw [firstQuote_append]
  cases firstQuote key l <;> rfl

/-- The search and the reading, from some place of the text on. -/
def readFrom (before text : Bytes) : Option Bytes :=
  (scan key before text).bind (readAfter room)

theorem readFrom_skip {c : UInt8} (hc : c ≠ 34) (before text : Bytes) :
    readFrom key room before (c :: text) = readFrom key room (before ++ [c]) text := by
  unfold readFrom
  rw [scan, if_neg fun h => hc h.1]

theorem readFrom_quote {before text : Bytes} {quote : Quote}
    (hquote : readAfter room text = quote.reading.map (List.take room)) :
    readFrom key room before (34 :: text) = if Place.named key ⟨before, quote⟩ then
      quote.reading.map (List.take room) else readFrom key room (before ++ [34]) text := by
  unfold readFrom Place.named
  rw [scan]
  by_cases hnamed : 34 :: key <:+ before
  · rw [if_pos ⟨rfl, hnamed⟩, if_pos (List.isSuffixOf_iff_suffix.mpr hnamed)]
    exact hquote
  · rw [if_neg fun h => hnamed h.2, if_neg fun h => hnamed (List.isSuffixOf_iff_suffix.mp h)]

theorem readFrom_escape {separator : UInt8} {next : Bytes}
    (hnext : readString room next = [separator].take room) (s before : Bytes) :
    readFrom key room before (escape s ++ 34 :: next) =
      pick key room (escapedPlaces separator before s)
        (readFrom key room (before ++ escape s) (34 :: next)) := by
  induction s generalizing before with
  | nil =>
      show readFrom key room before (34 :: next) = readFrom key room (before ++ []) (34 :: next)
      rw [List.append_nil]
  | cons c s ih =>
      rw [escape_cons, ← List.append_assoc before]
      unfold escapedPlaces
      by_cases hquote : c = 34
      · rw [if_pos hquote, pick_cons, escapeByte_special (Or.inl hquote), hquote]
        show readFrom key room before (92 :: 34 :: (escape s ++ 34 :: next)) = _
        have hfront : before ++ [92] ++ [34] = before ++ [92, 34] := by
          rw [List.append_assoc]
          rfl
        rw [readFrom_skip key room (by decide),
          readFrom_quote key room (readAfter_within room s next hnext), hfront, ih]
      · rw [if_neg hquote]
        by_cases hescape : c = 92
        · rw [escapeByte_special (Or.inr hescape), hescape]
          show readFrom key room before (92 :: 92 :: (escape s ++ 34 :: next)) = _
          have hfront : before ++ [92] ++ [92] = before ++ [92, 92] := by
            rw [List.append_assoc]
            rfl
          rw [readFrom_skip key room (by decide), readFrom_skip key room (by decide), hfront, ih]
        · rw [escapeByte_plain ⟨hquote, hescape⟩]
          show readFrom key room before (c :: (escape s ++ 34 :: next)) = _
          rw [readFrom_skip key room hquote, ih]

theorem readFrom_quoted {separator : UInt8} (closing : Quote) {next : Bytes}
    (hnext : readString room next = [separator].take room)
    (hclosing : readAfter room next = closing.reading.map (List.take room)) (s before : Bytes) :
    readFrom key room before (quoted s ++ next) =
      pick key room (quotedPlaces separator closing before s)
        (readFrom key room (before ++ quoted s) next) := by
  have htext : quoted s ++ next = 34 :: (escape s ++ 34 :: next) := by
    simp [quoted]
  have hopened : before ++ [34] ++ escape s = before ++ 34 :: escape s := by
    rw [List.append_assoc]
    rfl
  have hclosed : before ++ 34 :: escape s ++ [34] = before ++ quoted s := by
    simp [quoted]
  unfold quotedPlaces
  rw [htext, readFrom_quote key room (readAfter_within room s next hnext), pick_cons,
    pick_append, readFrom_escape key room hnext, hopened, readFrom_quote key room hclosing,
    pick_cons, hclosed]
  rfl

theorem readString_tail (rest : List (Bytes × Bytes)) :
    readString room (renderTail rest) = [separatorOf rest].take room := by
  cases rest with
  | nil =>
      cases room with
      | zero => rfl
      | succ room => cases room <;> rfl
  | cons entry rest => exact readString_byte room (by decide) (by decide) _

theorem readFrom_entry (before k : Bytes) {value : Bytes} (hvalue : 0 ∉ value)
    (rest : List (Bytes × Bytes)) :
    readFrom key room before (quoted k ++ 58 :: (quoted value ++ renderTail rest)) =
      pick key room (entryPlaces before k value rest)
        (readFrom key room (before ++ quoted k ++ [58] ++ quoted value) (renderTail rest)) := by
  have hcolon : readString room (58 :: (quoted value ++ renderTail rest)) = [58].take room := by
    unfold quoted
    exact readString_byte room (by decide) (by decide) _
  unfold entryPlaces
  rw [readFrom_quoted key room (.closesKey k value) hcolon
      (readAfter_string room hvalue _), readFrom_skip key room (by decide),
    readFrom_quoted key room .closesValue (readString_tail room rest)
      (readAfter_tail room rest), pick_append]

theorem readFrom_tail (before : Bytes) {rest : List (Bytes × Bytes)}
    (hvalues : ∀ e ∈ rest, 0 ∉ e.2) :
    readFrom key room before (renderTail rest) = pick key room (tailPlaces before rest) none := by
  induction rest generalizing before with
  | nil =>
      unfold renderTail
      rw [readFrom_skip key room (by decide)]
      rfl
  | cons entry rest ih =>
      unfold renderTail tailPlaces
      rw [readFrom_skip key room (by decide),
        readFrom_entry key room _ _ (hvalues entry List.mem_cons_self), pick_append,
        ih _ fun e he => hvalues e (List.mem_cons_of_mem _ he)]

theorem readFrom_render {object : List (Bytes × Bytes)} (hvalues : ∀ e ∈ object, 0 ∉ e.2) :
    readFrom key room [] (render object) = pick key room (places object) none := by
  cases object with
  | nil =>
      unfold render
      rw [readFrom_skip key room (by decide), readFrom_skip key room (by decide)]
      rfl
  | cons entry rest =>
      unfold render places
      rw [readFrom_skip key room (by decide), List.nil_append,
        readFrom_entry key room _ _ (hvalues entry List.mem_cons_self), pick_append,
        readFrom_tail key room _ fun e he => hvalues e (List.mem_cons_of_mem _ he)]

end First

/-! ## Zeros -/

theorem zero_not_mem_escape {s : Bytes} (h : 0 ∉ s) : 0 ∉ escape s := by
  unfold escape
  rw [List.mem_flatMap]
  rintro ⟨c, hc, hmem⟩
  unfold escapeByte at hmem
  split at hmem
  · next hspecial =>
      simp only [List.mem_cons, List.not_mem_nil, or_false] at hmem
      obtain h92 | rfl := hmem
      · exact absurd h92 (by decide)
      · exact h hc
  · exact h (List.mem_singleton.mp hmem ▸ hc)

theorem zero_not_mem_quoted {s : Bytes} (h : 0 ∉ s) : 0 ∉ quoted s := by
  have hescape := zero_not_mem_escape h
  unfold quoted
  simp [hescape]

theorem zero_not_mem_renderTail {rest : List (Bytes × Bytes)}
    (h : ∀ e ∈ rest, 0 ∉ e.1 ∧ 0 ∉ e.2) : 0 ∉ renderTail rest := by
  induction rest with
  | nil => decide
  | cons e rest ih =>
      have hkey := zero_not_mem_quoted (h e List.mem_cons_self).1
      have hvalue := zero_not_mem_quoted (h e List.mem_cons_self).2
      have htail := ih fun e' he => h e' (List.mem_cons_of_mem _ he)
      unfold renderTail
      simp [hkey, hvalue, htail]

/-- The text of an object without zeros is a C string as a whole. -/
theorem zero_not_mem_render {object : List (Bytes × Bytes)}
    (h : ∀ e ∈ object, 0 ∉ e.1 ∧ 0 ∉ e.2) : 0 ∉ render object := by
  cases object with
  | nil => decide
  | cons e rest =>
      have hkey := zero_not_mem_quoted (h e List.mem_cons_self).1
      have hvalue := zero_not_mem_quoted (h e List.mem_cons_self).2
      have htail := zero_not_mem_renderTail fun e' he => h e' (List.mem_cons_of_mem _ he)
      unfold render
      simp [hkey, hvalue, htail]

/-- `getString` on the text of an object reads at the first place that is named. -/
theorem getString_render {object : List (Bytes × Bytes)}
    (hobject : ∀ e ∈ object, 0 ∉ e.1 ∧ 0 ∉ e.2) {key : Bytes} (hzero : 0 ∉ key)
    (hkey : key.length ≤ 45) {n : Nat} (hn : 1 ≤ n) :
    getString (some (render object)) key n = pick key (n - 1) (places object) none := by
  have hwhole : key.takeWhile (· ≠ 0) = key := by
    rw [List.takeWhile_eq_self_iff]
    intro c hc
    exact decide_eq_true fun h => hzero (h ▸ hc)
  have hpattern : keyPattern key = 34 :: key ++ [34] := by
    unfold keyPattern
    rw [hwhole, List.take_of_length_le]
    simp
    omega
  have hscan := strstr_scan key [] (render object) (zero_not_mem_render hobject) (by simp)
  rw [List.nil_append] at hscan
  rw [← readFrom_render key (n - 1) fun e he => (hobject e he).2, readFrom, ← hscan]
  unfold getString findKey
  rw [hpattern]
  dsimp only
  cases strstr (34 :: key ++ [34]) (render object) with
  | none => rfl
  | some p =>
      rw [Option.map_some, Option.map_some, Option.bind_some]
      unfold readAfter
      split
      · next p' hp =>
          rw [if_neg (by omega), Option.some.inj hp]
          rfl
      · next hno =>
          split
          · next p' hp => exact absurd (congrArg some hp) (hno p')
          · rfl

theorem pick_places (object : List (Bytes × Bytes)) (key : Bytes) (room : Nat) :
    pick key room (places object) none =
      (firstNamed object key).bind fun quote => quote.reading.map (List.take room) := by
  unfold pick firstNamed
  cases firstQuote key (places object) <;> rfl

/-- What is read at the first quote that is named is the value of the key. -/
theorem clear_iff (object : List (Bytes × Bytes)) (key : Bytes) (room : Nat) :
    pick key room (places object) none = (object.lookup key).map (List.take room) ↔
      Clear object key ∨ Coincides object key room := by
  rw [pick_places]
  unfold Clear Coincides
  cases hlookup : object.lookup key with
  | none =>
      simp only [Option.map_none, Option.bind_eq_none_iff, Option.map_eq_none_iff, reduceCtorEq,
        false_and, and_false, exists_false, or_false]
  | some own =>
      constructor
      · intro hread
        rw [Option.map_some, Option.bind_eq_some_iff] at hread
        obtain ⟨quote, hquote, hread⟩ := hread
        obtain ⟨read, hreading, htake⟩ := Option.map_eq_some_iff.mp hread
        by_cases hown : quote = .closesKey key own
        · exact Or.inl (hquote.trans (congrArg some hown))
        · exact Or.inr ⟨quote, read, own, hquote, hreading, rfl, hown, htake⟩
      · rintro (hquote | ⟨quote, read, own', hquote, hreading, hown, -, htake⟩)
        · rw [hquote]
          rfl
        · obtain rfl := Option.some.inj hown
          rw [hquote, Option.bind_some, hreading, Option.map_some, Option.map_some, htake]

/-! ## Ordinary keys -/

theorem concat_suffix_concat {l front : Bytes} {d c : UInt8} :
    l ++ [d] <:+ front ++ [c] ↔ d = c ∧ l <:+ front := by
  rw [← List.reverse_prefix, List.reverse_concat, List.reverse_concat, List.cons_prefix_cons,
    List.reverse_prefix]

/-- The last byte of what is in front of a named quote is that of the key. -/
theorem named_concat {front key : Bytes} {c : UInt8} (hc : c ≠ 34)
    (h : 34 :: key <:+ front ++ [c]) : ∃ k, key = k ++ [c] ∧ 34 :: k <:+ front := by
  cases key using List.reverseRecOn with
  | nil => exact absurd (concat_suffix_concat (l := []).mp h).1.symm hc
  | append_singleton k d =>
      obtain ⟨rfl, hk⟩ := concat_suffix_concat (l := 34 :: k).mp h
      exact ⟨k, rfl, hk⟩

theorem lookup_closesKey (e : Bytes × Bytes) (rest : List (Bytes × Bytes)) (key : Bytes) :
    (if e.1 = key then some (Quote.closesKey e.1 e.2) else none).or
        ((rest.lookup key).map (Quote.closesKey key)) =
      ((e :: rest).lookup key).map (Quote.closesKey key) := by
  rw [List.lookup_cons]
  by_cases hkey : e.1 = key
  · rw [if_pos hkey, hkey, beq_self_eq_true]
    rfl
  · rw [if_neg hkey, beq_false_of_ne fun h => hkey h.symm]
    rfl

section Ordinary

variable {key : Bytes} (hplain : ∀ c ∈ key, c ≠ 34 ∧ c ≠ 92)

include hplain

/-- No quote is named that is escaped. -/
theorem not_named_escaped (front : Bytes) : ¬34 :: key <:+ front ++ [92] := by
  intro h
  obtain ⟨k, rfl, -⟩ := named_concat (by decide) h
  exact (hplain 92 (List.mem_concat_self ..)).2 rfl

/-- No quote is named that opens a string behind this byte. -/
theorem not_named_opening {c : UInt8} (hc : c ≠ 34) (hkey : key ≠ [c]) (front : Bytes) :
    ¬34 :: key <:+ front ++ [34] ++ [c] := by
  intro h
  obtain ⟨k, rfl, hk⟩ := named_concat hc h
  cases k using List.reverseRecOn with
  | nil => exact hkey rfl
  | append_singleton k d =>
      obtain ⟨rfl, -⟩ := concat_suffix_concat (l := 34 :: k).mp hk
      exact (hplain 34 (by simp)).1 rfl

/-- A closing quote is named if the string is the key, or ends in it from a quote on. -/
theorem named_closing {before s : Bytes} (h : 34 :: key <:+ before ++ 34 :: escape s) :
    s = key ∨ 34 :: key <:+ s := by
  induction s using List.reverseRecOn generalizing key with
  | nil =>
      cases key using List.reverseRecOn with
      | nil => exact Or.inl rfl
      | append_singleton k d =>
          obtain ⟨rfl, -⟩ := concat_suffix_concat (l := 34 :: k).mp h
          exact absurd rfl (hplain 34 (List.mem_concat_self ..)).1
  | append_singleton s c ih =>
      have hescape : escape (s ++ [c]) = escape s ++ escapeByte c := by
        simp [escape]
      rw [hescape] at h
      have hlast : ∃ front, escapeByte c = front ++ [c] := by
        unfold escapeByte
        split
        · exact ⟨[92], rfl⟩
        · exact ⟨[], rfl⟩
      obtain ⟨front, hfront⟩ := hlast
      have hend : before ++ 34 :: (escape s ++ (front ++ [c])) =
          before ++ 34 :: escape s ++ front ++ [c] := by
        simp
      rw [hfront, hend] at h
      cases key using List.reverseRecOn with
      | nil =>
          obtain ⟨rfl, -⟩ := concat_suffix_concat (l := []).mp h
          exact Or.inr (List.suffix_append s [34])
      | append_singleton k d =>
          obtain ⟨rfl, hk⟩ := concat_suffix_concat (l := 34 :: k).mp h
          have hd := hplain d (List.mem_concat_self ..)
          have hnil : front = [] := by
            rw [escapeByte_plain hd] at hfront
            exact (List.append_left_eq_self.mp hfront.symm)
          rw [hnil, List.append_nil] at hk
          obtain rfl | hk := ih (fun c hc => hplain c (List.mem_append_left _ hc)) hk
          · exact Or.inl rfl
          · exact Or.inr (concat_suffix_concat (l := 34 :: k).mpr ⟨rfl, hk⟩)

theorem firstQuote_escapedPlaces (separator : UInt8) (before s : Bytes) :
    firstQuote key (escapedPlaces separator before s) = none := by
  induction s generalizing before with
  | nil => rfl
  | cons c s ih =>
      unfold escapedPlaces
      split
      · rw [firstQuote_cons,
          if_neg fun h => not_named_escaped hplain before (Place.named_iff.mp h), ih]
      · exact ih _

/-- Of the quotes of a string only the closing one may be named, and it is if the string is
    the key. -/
theorem firstQuote_quotedPlaces {separator : UInt8} {closing : Quote} {before s : Bytes}
    (hopening : ¬34 :: key <:+ before) (hs : ¬34 :: key <:+ s) :
    firstQuote key (quotedPlaces separator closing before s) =
      if s = key then some closing else none := by
  unfold quotedPlaces
  rw [firstQuote_cons, if_neg fun h => hopening (Place.named_iff.mp h), firstQuote_append,
    firstQuote_escapedPlaces hplain, Option.none_or, firstQuote_cons]
  by_cases hkey : s = key
  · have hescape : escape s = s := by
      rw [hkey]
      unfold escape
      rw [List.flatMap_congr fun c hc => escapeByte_plain (hplain c hc)]
      exact List.flatMap_pure_eq_map id key |>.trans (List.map_id key)
    rw [if_pos hkey, if_pos]
    rw [Place.named_iff, hescape, hkey]
    exact List.suffix_append _ _
  · rw [if_neg hkey, if_neg]
    · rfl
    · exact fun h => (named_closing hplain (Place.named_iff.mp h)).elim hkey hs

variable (hcolon : key ≠ [58])

include hcolon

theorem firstQuote_entryPlaces {before k value : Bytes} (rest : List (Bytes × Bytes))
    (hopening : ¬34 :: key <:+ before) (hk : ¬34 :: key <:+ k)
    (hvalue : value ≠ key ∧ ¬34 :: key <:+ value) :
    firstQuote key (entryPlaces before k value rest) =
      if k = key then some (.closesKey k value) else none := by
  have hvalueOpening : ¬34 :: key <:+ before ++ quoted k ++ [58] := by
    have hquote : before ++ quoted k ++ [58] = before ++ 34 :: escape k ++ [34] ++ [58] := by
      simp [quoted]
    rw [hquote]
    exact not_named_opening hplain (by decide) hcolon _
  unfold entryPlaces
  rw [firstQuote_append, firstQuote_quotedPlaces hplain hopening hk,
    firstQuote_quotedPlaces hplain hvalueOpening hvalue.2, if_neg hvalue.1, Option.or_none]

variable (hcomma : key ≠ [44])

include hcomma

theorem firstQuote_tailPlaces (front : Bytes) {rest : List (Bytes × Bytes)}
    (hkeys : ∀ e ∈ rest, ¬34 :: key <:+ e.1)
    (hvalues : ∀ e ∈ rest, e.2 ≠ key ∧ ¬34 :: key <:+ e.2) :
    firstQuote key (tailPlaces (front ++ [34]) rest) =
      (rest.lookup key).map (Quote.closesKey key) := by
  induction rest generalizing front with
  | nil => rfl
  | cons e rest ih =>
      have hopening := not_named_opening hplain (by decide) hcomma front
      have hback : front ++ [34] ++ [44] ++ quoted e.1 ++ [58] ++ quoted e.2 =
          front ++ [34] ++ [44] ++ quoted e.1 ++ [58] ++ 34 :: escape e.2 ++ [34] := by
        simp [quoted]
      unfold tailPlaces
      rw [firstQuote_append, firstQuote_entryPlaces hplain hcolon rest hopening
        (hkeys e List.mem_cons_self) (hvalues e List.mem_cons_self), hback,
        ih _ (fun e' he => hkeys e' (List.mem_cons_of_mem _ he))
          fun e' he => hvalues e' (List.mem_cons_of_mem _ he), lookup_closesKey]

/-- The first quote that is named closes the key. -/
theorem firstNamed_plain {object : List (Bytes × Bytes)}
    (hkeys : ∀ e ∈ object, ¬34 :: key <:+ e.1)
    (hvalues : ∀ e ∈ object, e.2 ≠ key ∧ ¬34 :: key <:+ e.2) :
    firstNamed object key = (object.lookup key).map (Quote.closesKey key) := by
  cases object with
  | nil => rfl
  | cons e rest =>
      have hopening : ¬34 :: key <:+ [123] := by
        intro h
        have hfront : 34 :: key <:+ [] ++ [123] := h
        obtain ⟨k, -, hk⟩ := named_concat (by decide) hfront
        exact List.cons_ne_nil _ _ (List.suffix_nil.mp hk)
      have hback : [123] ++ quoted e.1 ++ [58] ++ quoted e.2 =
          [123] ++ quoted e.1 ++ [58] ++ 34 :: escape e.2 ++ [34] := by
        simp [quoted]
      unfold firstNamed places
      rw [firstQuote_append, firstQuote_entryPlaces hplain hcolon rest hopening
        (hkeys e List.mem_cons_self) (hvalues e List.mem_cons_self), hback,
        firstQuote_tailPlaces hplain hcolon hcomma _
          (fun e' he => hkeys e' (List.mem_cons_of_mem _ he))
          fun e' he => hvalues e' (List.mem_cons_of_mem _ he), lookup_closesKey]

/-- A key without quotes and backslashes, and not a comma or a colon, is clear if no value is
    the key and no string ends in it from a quote on. -/
theorem clear_of_plain {object : List (Bytes × Bytes)} (hkeys : ∀ e ∈ object, ¬34 :: key <:+ e.1)
    (hvalues : ∀ e ∈ object, e.2 ≠ key ∧ ¬34 :: key <:+ e.2) : Clear object key := by
  unfold Clear
  rw [firstNamed_plain hplain hcolon hcomma hkeys hvalues]
  cases object.lookup key with
  | none => exact fun quote hquote => absurd hquote (Option.some_ne_none quote).symm
  | some own => rfl

end Ordinary

/-- What `getString` finds is the value of the key, exactly if the key is clear or what is read
    in its place happens to be its value. -/
theorem getString_exact_iff (object : List (Bytes × Bytes))
    (hobject : ∀ e ∈ object, 0 ∉ e.1 ∧ 0 ∉ e.2) {key : Bytes} (hzero : 0 ∉ key)
    (hkey : key.length ≤ 45) {n : Nat} (hn : 1 ≤ n) :
    getString (some (render object)) key n = (object.lookup key).map (List.take (n - 1)) ↔
      Clear object key ∨ Coincides object key (n - 1) := by
  rw [getString_render hobject hzero hkey hn, clear_iff]

/-- The name of the network is the key of the password. -/
def passNetwork : List (Bytes × Bytes) :=
  [(utf8 "ssid", utf8 "pass"), (utf8 "pass", utf8 "secret")]

theorem getString_exact_iff_ssid :
    getString (some (render passNetwork)) (utf8 "ssid") 33 =
        (passNetwork.lookup (utf8 "ssid")).map (List.take 32) ↔
      Clear passNetwork (utf8 "ssid") ∨ Coincides passNetwork (utf8 "ssid") 32 :=
  getString_exact_iff passNetwork (by decide +kernel) (by decide +kernel) (by decide +kernel)
    (by decide)

theorem getString_misses_pass :
    getString (some (render passNetwork)) (utf8 "pass") 65 = none ∧
      passNetwork.lookup (utf8 "pass") = some (utf8 "secret") := by
  decide +kernel

end AtechActions

end LiquidLayer
