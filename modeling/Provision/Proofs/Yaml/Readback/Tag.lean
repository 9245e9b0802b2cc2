import Mathlib.Data.List.TakeWhile
import Provision.Proofs.Text.Utf8
import Provision.Proofs.Yaml.Readback.Source
import Provision.Yaml.Node.Read
import Provision.Yaml.Outline.Render

/-!
# Tags are read back

A tag of one's own is written with its bytes escaped, except for the characters that may stand for
themselves. Commas and square brackets are written as they are, but a reader takes them for the end
of the tag: a tag that is read back has none of them.

> `uriFrom_tagChars`: the characters of a tag are read as their bytes;
> `scanTag_tagText`: a legible tag is read back.
-/

namespace Provision.Yaml

open Outline (isSafe endsLine isTagChar hexDigits tagChars tagText)
open Source (laid)
open Text.Utf8 (encode)

/-! ## Bytes -/

section Bytes

variable {within : Construct} {start m : Mark} {wide : Bool} {acc : List UInt8} {rest : List Char}

/-- A byte as it is written. -/
def escapedByte (b : UInt8) : List Char := '%' :: hexDigits 2 b.toNat

/-- A byte is written with two digits. -/
theorem hexDigits_byte {n : Nat} (h : n < 256) : ∃ high low, hexDigits 2 n = [high, low] ∧
    hexValue? high = some (n / 16) ∧ hexValue? low = some (n % 16) := by
  have hall : ∀ n < 256, (hexDigits 2 n).map hexValue? = [some (n / 16), some (n % 16)] := by
    set_option maxRecDepth 1000 in decide
  obtain ⟨high, _, hdigits, hhigh, hrest⟩ := List.map_eq_cons_iff.mp (hall n h)
  obtain ⟨low, _, rfl, hlow, hrest⟩ := List.map_eq_cons_iff.mp hrest
  obtain rfl := List.map_eq_nil_iff.mp hrest
  exact ⟨high, low, hdigits, hhigh, hlow⟩

/-- How many bytes have to follow a byte, where so many had to come. -/
def Follows (owed : Nat) (b : UInt8) (owed' : Nat) : Prop :=
  owed = 0 ∧ octetWidth b.toNat = owed' + 1 ∨ owed = owed' + 1 ∧ b.toNat / 64 = 2

/-- An escape is read as its byte. -/
theorem uriFrom_escapedByte {owed owed' : Nat} {b : UInt8} (h : Follows owed b owed') :
    uriFrom within start wide 0 owed acc (laid m (escapedByte b ++ rest)) =
      uriFrom within start wide 0 owed' (b :: acc) (laid (m.past (escapedByte b)) rest) := by
  obtain ⟨high, low, hdigits, hhigh, hlow⟩ := hexDigits_byte b.toNat_lt
  have hbyte : 16 * (b.toNat / 16) + b.toNat % 16 = b.toNat := Nat.div_add_mod _ _
  rw [escapedByte, hdigits]
  simp only [List.cons_append, List.nil_append, Mark.past_cons, Mark.past_nil]
  rw [laid, uriFrom]
  simp only [beq_self_eq_true, if_true, Source.char_laid_cons, Source.charAt_laid_cons,
    Source.charAt_laid_zero, hhigh, hlow, hbyte]
  have hb : b.toNat.toUInt8 = b := by simp
  obtain ⟨rfl, hwidth⟩ | ⟨rfl, htrail⟩ := h
  · rw [if_pos rfl, hwidth, if_neg (Nat.succ_ne_zero _), hb]
    rfl
  · rw [if_neg (Nat.succ_ne_zero _), if_pos htrail, hb]
    rfl

/-- The bytes that have to follow are read as escapes. -/
theorem uriFrom_trail {bytes : List UInt8} (h : ∀ b ∈ bytes, b.toNat / 64 = 2) :
    uriFrom within start wide 0 bytes.length acc (laid m (bytes.flatMap escapedByte ++ rest)) =
      uriFrom within start wide 0 0 (bytes.reverse ++ acc)
        (laid (m.past (bytes.flatMap escapedByte)) rest) := by
  induction bytes generalizing acc m with
  | nil => rfl
  | cons b bytes ih =>
    rw [List.forall_mem_cons] at h
    rw [List.flatMap_cons, List.append_assoc, List.length_cons,
      uriFrom_escapedByte (.inr ⟨rfl, h.1⟩), ih h.2, Mark.past_append]
    simp

/-- A character is a first byte and those that have to follow. None of them is zero. -/
theorem utf8EncodeChar_cases (c : Char) : ∃ b form, String.utf8EncodeChar c = b :: form ∧
    octetWidth b.toNat = form.length + 1 ∧ (∀ d ∈ form, d.toNat / 64 = 2) ∧
      (c ≠ '\x00' → b ≠ 0) := by
  have hvalid := Text.Utf8.toNat_valid c
  have hnil : ∀ d ∈ ([] : List UInt8), d.toNat / 64 = 2 := fun _ h => absurd h List.not_mem_nil
  have htrail : ∀ (n : Nat) {form : List UInt8}, (∀ d ∈ form, d.toNat / 64 = 2) →
      ∀ d ∈ UInt8.ofNat (0x80 + n % 64) :: form, d.toNat / 64 = 2 := fun n form h => by
    refine List.forall_mem_cons.mpr ⟨?_, h⟩
    rw [Text.Utf8.toNat_byte (by omega)]
    omega
  have hzero : ∀ {n : Nat}, n < 256 → n ≠ 0 → UInt8.ofNat n ≠ 0 := fun hn hne h => by
    have := congrArg UInt8.toNat h
    rw [Text.Utf8.toNat_byte hn] at this
    exact hne this
  by_cases hone : c.toNat < 0x80
  · refine ⟨_, _, Text.Utf8.encodeChar_of_one hone, ?_, hnil, fun hc => hzero (by omega) ?_⟩
    · rw [Text.Utf8.toNat_byte (by omega), octetWidth, if_pos hone]
      rfl
    · intro h
      rw [← c.ofNat_toNat, h] at hc
      exact hc rfl
  have hlast := htrail c.toNat hnil
  by_cases htwo : c.toNat < 0x800
  · refine ⟨_, _, Text.Utf8.encodeChar_of_two (by omega) htwo, ?_, hlast,
      fun _ => hzero (by omega) (by omega)⟩
    rw [Text.Utf8.toNat_byte (by omega), octetWidth, if_neg (by omega), if_pos (by omega)]
    rfl
  have hlast := htrail (c.toNat / 64) hlast
  by_cases hthree : c.toNat < 0x10000
  · refine ⟨_, _, Text.Utf8.encodeChar_of_three (by omega) hthree, ?_, hlast,
      fun _ => hzero (by omega) (by omega)⟩
    rw [Text.Utf8.toNat_byte (by omega), octetWidth, if_neg (by omega), if_neg (by omega),
      if_pos (by omega)]
    rfl
  · have hlast := htrail (c.toNat / 4096) hlast
    refine ⟨_, _, Text.Utf8.encodeChar_of_four (by omega), ?_, hlast,
      fun _ => hzero (by omega) (by omega)⟩
    rw [Text.Utf8.toNat_byte (by omega), octetWidth, if_neg (by omega), if_neg (by omega),
      if_neg (by omega), if_pos (by omega)]
    rfl

/-- The bytes of a text without the character of number zero are not zero. -/
theorem ne_zero_of_mem_encoded {cs : List Char} (h : ∀ c ∈ cs, c ≠ '\x00') :
    ∀ b ∈ cs.flatMap String.utf8EncodeChar, b ≠ 0 := by
  intro b hb
  obtain ⟨c, hc, hb⟩ := List.mem_flatMap.mp hb
  obtain ⟨first, form, hform, -, htrail, hfirst⟩ := utf8EncodeChar_cases c
  rw [hform, List.mem_cons] at hb
  rcases hb with rfl | hb
  · exact hfirst (h c hc)
  · rintro rfl
    exact absurd (htrail 0 hb) (by decide)

end Bytes

/-! ## Characters -/

/-- The characters that are written as they are, but end a tag. -/
def tagEnds : List Char := [',', '[', ']']

/-- Word characters are of the first hundred and twenty-eight. -/
theorem toNat_lt_of_isWordChar {c : Char} (h : isWordChar c = true) : c.toNat < 0x80 := by
  rw [isWordChar, Bool.or_eq_true, Bool.or_eq_true, beq_iff_eq, beq_iff_eq] at h
  rcases h with (h | rfl) | rfl
  · have h : (decide (c.val ≥ 'A'.val ∧ c.val ≤ 'Z'.val) ||
        (decide (c.val ≥ 'a'.val) && decide (c.val ≤ 'z'.val)) ||
          (decide (c.val ≥ '0'.val) && decide (c.val ≤ '9'.val))) = true := h
    simp only [Bool.or_eq_true, Bool.and_eq_true, decide_eq_true_eq, UInt32.le_iff_toNat_le] at h
    have hupper : 'Z'.val.toNat = 90 := rfl
    have hlower : 'z'.val.toNat = 122 := rfl
    have hdigit : '9'.val.toNat = 57 := rfl
    rw [← Text.Utf8.toNat_val]
    omega
  all_goals decide

/-- A property of the characters that stand for themselves in a tag, checked one by one. -/
theorem forall_isTagChar {P : Char → Prop} {c : Char} (hc : isTagChar c = true)
    (h : ∀ n < 0x80, isTagChar (Char.ofNat n) = true → P (Char.ofNat n)) : P c := by
  have hlow : c.toNat < 0x80 := by
    rw [isTagChar, Bool.or_eq_true, List.contains_iff_mem] at hc
    rcases hc with hc | hc
    · exact toNat_lt_of_isWordChar hc
    · exact (by decide : ∀ c ∈ _, Char.toNat c < 0x80) c hc
  have := h c.toNat hlow
  rw [Char.ofNat_toNat] at this
  exact this hc

/-- What stands for itself in a tag is one byte, and is read as that unless it ends the tag. -/
theorem read_of_isTagChar {c : Char} (hc : isTagChar c = true) (hend : c ∉ tagEnds) :
    isUriChar false c = true ∧ c ≠ '%' ∧ String.utf8EncodeChar c = [c.toNat.toUInt8] := by
  refine forall_isTagChar (P := fun c => c ∉ tagEnds → isUriChar false c = true ∧ c ≠ '%' ∧
    String.utf8EncodeChar c = [c.toNat.toUInt8]) hc ?_ hend
  decide

/-- A property of what is written for the characters of a tag. -/
theorem forall_mem_tagChars {P : Char → Prop}
    (hself : ∀ n < 0x80, isTagChar (Char.ofNat n) = true → P (Char.ofNat n))
    (hbyte : ∀ n < 256, ∀ c ∈ '%' :: hexDigits 2 n, P c) {cs : List Char} :
    ∀ c ∈ tagChars cs, P c := by
  intro c hc
  obtain ⟨d, -, hc⟩ := List.mem_flatMap.mp hc
  split at hc
  next hd =>
    rw [List.mem_singleton.mp hc]
    exact forall_isTagChar hd hself
  next =>
    obtain ⟨b, -, hc⟩ := List.mem_flatMap.mp hc
    exact hbyte b.toNat b.toNat_lt c hc

/-- What is written in a tag is safe, on one line, and no mark of a tag. -/
theorem isSafe_of_mem_tagChars {cs : List Char} : ∀ c ∈ tagChars cs,
    (isSafe c = true ∧ endsLine c = false) ∧ c ≠ '!' ∧ c ≠ '<' :=
  forall_mem_tagChars (by decide) (by set_option maxRecDepth 1000 in decide)

/-! ## Tags -/

section

variable {within : Construct} {start m : Mark} {acc : List UInt8} {rest cs : List Char}

/-- **The characters of a tag are read as their bytes.** -/
theorem uriFrom_tagChars (within : Construct) (start : Mark) (acc : List UInt8) (rest : List Char)
    {g : Char} (hg : isUriChar false g = false) (hpercent : g ≠ '%')
    (hends : ∀ c ∈ cs, c ∉ tagEnds) :
    uriFrom within start false 0 0 acc (laid m (tagChars cs ++ g :: rest)) =
      .ok (acc.reverse ++ cs.flatMap String.utf8EncodeChar,
        laid (m.past (tagChars cs)) (g :: rest)) := by
  induction cs generalizing acc m with
  | nil => simp [tagChars, laid, uriFrom, hg, hpercent]
  | cons c cs ih =>
    rw [List.forall_mem_cons] at hends
    have hcons : tagChars (c :: cs) = tagChars [c] ++ tagChars cs := by simp [tagChars]
    have hone : ∀ {rest}, uriFrom within start false 0 0 acc (laid m (tagChars [c] ++ rest)) =
        uriFrom within start false 0 0 ((String.utf8EncodeChar c).reverse ++ acc)
          (laid (m.past (tagChars [c])) rest) := by
      intro rest
      rw [tagChars, List.flatMap_singleton]
      cases hc : isTagChar c with
      | true =>
        obtain ⟨huri, hne, hbyte⟩ := read_of_isTagChar hc hends.1
        simp [laid, uriFrom, hne, huri, hbyte]
      | false =>
        obtain ⟨b, form, hform, hwidth, htrail, -⟩ := utf8EncodeChar_cases c
        have hencode : encode (String.singleton c) = b :: form := by
          rw [← hform, ← List.flatMap_singleton String.utf8EncodeChar c,
            ← Text.Utf8.encode_ofList]
          rfl
        rw [hencode, hform, if_neg Bool.false_ne_true]
        show uriFrom _ _ _ _ _ _ (laid m ((b :: form).flatMap escapedByte ++ rest)) = _
        rw [List.flatMap_cons, List.append_assoc, uriFrom_escapedByte (.inl ⟨rfl, hwidth⟩),
          uriFrom_trail htrail]
        show _ = uriFrom _ _ _ _ _ _ (laid (m.past ((b :: form).flatMap escapedByte)) rest)
        simp [Mark.past_append]
    rw [hcons, List.append_assoc, hone, ih _ hends.2, Mark.past_append]
    simp

end

/-- Whether a tag is read as it has been written: it has a single exclamation mark at its start, and
nothing that ends a tag or the text of its name. -/
def LegibleTag (t : String) : Prop :=
  t = "!" ∨ ∃ c cs, t.toList = '!' :: c :: cs ∧ c ≠ '!' ∧ ∀ d ∈ c :: cs, d ∉ '\x00' :: tagEnds

/-- The name of a tag. -/
def tagName (t : String) : String := if t = "!" then t else String.ofList (t.toList.drop 1)

/-- The token of a tag. The tag that is a mere mark is written between angle brackets. -/
def tagToken (t : String) : Token :=
  if t = "!" then .tag "" [0x21] else .tag "!" (encode (tagName t))

theorem exists_tagText (t : String) : ∃ text, tagText t = '!' :: text := by
  rw [tagText]
  split <;> exact ⟨_, rfl⟩

/-- What is written for a tag is safe and on one line. -/
theorem isSafe_of_mem_tagText (t : String) :
    ∀ c ∈ tagText t, isSafe c = true ∧ endsLine c = false := by
  have hmark : ∀ c ∈ ['!', '<', '>'], isSafe c = true ∧ endsLine c = false := by decide
  have hchars : ∀ {cs}, ∀ c ∈ tagChars cs, isSafe c = true ∧ endsLine c = false :=
    fun c hc => (isSafe_of_mem_tagChars c hc).1
  rw [tagText]
  split
  · exact List.forall_mem_cons.mpr ⟨hmark _ (by simp), hchars⟩
  · refine List.forall_mem_append.mpr ⟨List.forall_mem_append.mpr ⟨fun c hc => hmark c ?_,
      hchars⟩, fun c hc => hmark c ?_⟩
    · simp only [List.mem_cons, List.not_mem_nil, or_false] at hc ⊢
      tauto
    · simp only [List.mem_cons, List.not_mem_nil, or_false] at hc ⊢
      tauto

/-- A gap goes on with neither a word nor a tag. -/
theorem ne_of_isGap {g : Char} (hg : isGap g = true) :
    isWordChar g = false ∧ isUriChar false g = false ∧ g ≠ '%' ∧ g ≠ '!' := by
  simp only [isGap, isWhite, isStop, isBreak, endChar, Bool.or_eq_true, beq_iff_eq] at hg
  rcases hg with (rfl | rfl) | ((rfl | rfl) | rfl) | rfl <;> decide

/-- A character that does not stand for itself is written as escapes. -/
theorem tagChars_cons (c : Char) (cs : List Char) :
    tagChars (c :: cs) = (if isTagChar c then [c] else
      (String.utf8EncodeChar c).flatMap escapedByte) ++ tagChars cs := by
  have hencode : encode (String.singleton c) = String.utf8EncodeChar c := by
    rw [← List.flatMap_singleton String.utf8EncodeChar c, ← Text.Utf8.encode_ofList]
    rfl
  rw [tagChars, List.flatMap_cons, hencode]
  rfl

/-- A tag begins with a word, which may be empty. -/
theorem exists_word {g : Char} (hg : isGap g = true) (rest cs : List Char) :
    ∃ word more, cs = word ++ more ∧ (∀ c ∈ word, isWordChar c = true) ∧
      tagChars cs = word ++ tagChars more ∧
      ∀ m, isWordChar (Source.char (laid m (tagChars more ++ g :: rest))) = false := by
  induction cs with
  | nil => exact ⟨[], [], rfl, by simp, rfl, fun _ => (ne_of_isGap hg).1⟩
  | cons c cs ih =>
    cases hc : isWordChar c with
    | true =>
      obtain ⟨word, more, rfl, hword, hchars, hnext⟩ := ih
      refine ⟨c :: word, more, rfl, List.forall_mem_cons.mpr ⟨hc, hword⟩, ?_, hnext⟩
      have hself : isTagChar c = true := by rw [isTagChar, hc, Bool.true_or]
      rw [tagChars_cons, hself, hchars]
      rfl
    | false =>
      refine ⟨[], c :: cs, rfl, by simp, rfl, fun m => ?_⟩
      rw [tagChars_cons]
      split
      · exact hc
      · obtain ⟨b, form, hform, -⟩ := utf8EncodeChar_cases c
        rw [hform]
        rfl

/-- A word is its own bytes. -/
theorem encoded_word {word : List Char} (h : ∀ c ∈ word, isWordChar c = true) :
    word.flatMap String.utf8EncodeChar = word.map (·.toNat.toUInt8) := by
  rw [List.map_eq_flatMap]
  refine List.flatMap_congr fun c hc => ?_
  exact Text.Utf8.encodeChar_of_one (toNat_lt_of_isWordChar (h c hc))

/-- What comes in a tag or after it is no mark of a tag. -/
theorem char_tagChars {g : Char} (hg : isGap g = true) (cs rest : List Char) (m : Mark) :
    Source.char (laid m (tagChars cs ++ g :: rest)) ≠ '!' ∧
      Source.char (laid m (tagChars cs ++ g :: rest)) ≠ '<' := by
  cases hcs : tagChars cs with
  | nil =>
    refine ⟨(ne_of_isGap hg).2.2.2, ?_⟩
    rintro rfl
    exact absurd hg (by decide)
  | cons c chars => exact (isSafe_of_mem_tagChars c (by rw [hcs]; simp)).2

/-- A handle that is a word goes on with a name. -/
theorem scanHandle_word (rest : List Char) {word : List Char}
    (hword : ∀ c ∈ word, isWordChar c = true)
    (hnext : ∀ m, isWordChar (Source.char (laid m rest)) = false ∧ Source.char (laid m rest) ≠ '!')
    (start m : Mark) : scanHandle false start (laid m ('!' :: (word ++ rest))) =
      .ok ('!' :: word, laid (m.past ('!' :: word)) rest) := by
  have hrun := Source.run_laid (m := m.after '!') hword (hnext _).1
  have hbang := beq_false_of_ne (hnext ((m.after '!').past word)).2
  rw [scanHandle, Source.char_laid_cons, Source.drop_laid_cons, List.drop_zero, hrun]
  simp [hbang, pure, Except.pure]

/-- The tag that is only a mark is written in angles. -/
theorem scanTag_mark {g : Char} (hg : isGap g = true) {m : Mark} {rest : List Char} :
    scanTag false (laid m (tagText "!" ++ g :: rest)) =
      .ok (.point (tagToken "!") m, laid (m.past (tagText "!")) (g :: rest)) := by
  have htext : tagText "!" = ['!', '<', '%', '2', '1', '>'] := by
    have hlist : "!".toList = ['!'] := rfl
    have hother : isTagChar '!' = false := by decide
    have hbytes : encode (String.singleton '!') = [0x21] := Text.Utf8.encode_ofList ['!']
    rw [tagText, hlist]
    simp only [tagChars, List.flatMap_singleton, hother, hbytes]
    decide
  have hoctet : octetWidth 33 = 1 := rfl
  have htwo : hexValue? '2' = some 2 := by decide
  have hone : hexValue? '1' = some 1 := by decide
  rw [htext]
  simp [scanTag, scanUri, laid, uriFrom, htwo, hone, hoctet, Source.char, Source.charAt,
    Source.mark, hg, tagToken, bind, Except.bind, pure, Except.pure, isUriChar, isWordChar]

/-- A mark with a word after it is no handle, which would end with another mark. -/
theorem not_handle_of_word {word : List Char} (hword : ∀ d ∈ word, isWordChar d = true) :
    (decide (1 < ('!' :: word).length) && ('!' :: word).getLast? == some '!') = false := by
  rcases List.eq_nil_or_concat' word with rfl | ⟨front, last, rfl⟩
  · rfl
  · have hne : last ≠ '!' := by
      rintro rfl
      exact absurd (hword '!' (by simp)) (by decide)
    have hget : ('!' :: (front ++ [last])).getLast? = some last := by
      rw [← List.cons_append, List.getLast?_concat]
    rw [hget, Bool.and_eq_false_imp]
    exact fun _ => beq_false_of_ne (by simpa using hne)

/-- **A legible tag is read back**, up to the gap after it. -/
theorem scanTag_tagText {t : String} (ht : LegibleTag t) {g : Char} (hg : isGap g = true)
    {m : Mark} {rest : List Char} :
    scanTag false (laid m (tagText t ++ g :: rest)) =
      .ok (.point (tagToken t) m, laid (m.past (tagText t)) (g :: rest)) := by
  obtain ⟨-, huri, hpercent, -⟩ := ne_of_isGap hg
  obtain rfl | ⟨c, cs, ht, hc, hlegible⟩ := ht
  · exact scanTag_mark hg
  · have htext : tagText t = '!' :: tagChars (c :: cs) := by rw [tagText, ht]; rfl
    have hbang : t ≠ "!" := by
      rintro rfl
      simp at ht
    have hname : encode (tagName t) = (c :: cs).flatMap String.utf8EncodeChar := by
      rw [tagName, if_neg hbang, ht, List.drop_one, List.tail_cons, Text.Utf8.encode_ofList]
    obtain ⟨word, more, hsplit, hword, hchars, hnext⟩ := exists_word hg rest (c :: cs)
    have hmore : ∀ d ∈ more, d ∉ tagEnds := fun d hd h =>
      hlegible d (by rw [hsplit]; exact List.mem_append_right _ hd) (List.mem_cons_of_mem _ h)
    have hhandle := scanHandle_word (tagChars more ++ g :: rest) hword
      (fun m => ⟨hnext m, (char_tagChars hg more rest m).1⟩) m m
    have hangle : (Source.charAt (laid m ('!' :: (word ++ (tagChars more ++ g :: rest))))
        1 == '<') = false := by
      have := (char_tagChars hg (c :: cs) rest (m.after '!')).2
      rw [hchars, List.append_assoc] at this
      exact beq_false_of_ne this
    have hbytes := uriFrom_tagChars .tagUri m [] rest (m := m.past ('!' :: word))
      huri hpercent hmore
    have hsuffix : word.map (·.toNat.toUInt8) ++ more.flatMap String.utf8EncodeChar =
        encode (tagName t) := by
      rw [hname, hsplit, List.flatMap_append, encoded_word hword]
    have hzero : (encode (tagName t)).head?.all (· == 0) = false := by
      obtain ⟨first, form, hform, -, -, hfirst⟩ := utf8EncodeChar_cases c
      have hne : first ≠ 0 := hfirst fun h => hlegible c (by simp) (by simp [h])
      rw [hname, List.flatMap_cons, hform]
      simpa using hne
    rw [htext, hchars, List.cons_append, List.append_assoc, scanTag]
    simp only [Source.mark_laid, hangle, Bool.false_eq_true, if_false, hhandle,
      not_handle_of_word hword, scanUri, hbytes, bind, Except.bind, pure, Except.pure,
      List.isEmpty_cons, Bool.and_false, List.reverse_nil, List.nil_append, List.drop_one,
      List.tail_cons, hsuffix, hzero, Source.char_laid_cons, hg, Bool.false_and, Bool.not_false,
      Bool.not_true]
    rw [tagToken, if_neg hbang, ← List.cons_append, Mark.past_append]

/-- The bytes of a tag and of the mark that its handle stands for are its name. -/
theorem ofBytes_tag {t : String} (ht : LegibleTag t) (hne : t ≠ "!") :
    Tag.ofBytes (0x21 :: encode (tagName t)) = .custom (tagName t) := by
  obtain ⟨c, cs, ht, hc, hlegible⟩ := ht.resolve_left hne
  have hname : tagName t = String.ofList (c :: cs) := by rw [tagName, if_neg hne, ht]; rfl
  have hbytes : (0x21 :: encode (tagName t)) = encode (String.ofList ('!' :: c :: cs)) := by
    rw [hname, Text.Utf8.encode_ofList, Text.Utf8.encode_ofList, List.flatMap_cons (x := '!')]
    rfl
  have hnonzero : ∀ b ∈ encode (String.ofList ('!' :: c :: cs)), b ≠ 0 := by
    rw [Text.Utf8.encode_ofList]
    refine ne_zero_of_mem_encoded (List.forall_mem_cons.mpr ⟨by decide, fun d hd h => ?_⟩)
    exact hlegible d hd (by simp [h])
  have hwhole : (encode (String.ofList ('!' :: c :: cs))).takeWhile (· ≠ 0) =
      encode (String.ofList ('!' :: c :: cs)) :=
    List.takeWhile_eq_self_iff.mpr fun b hb => by simpa using hnonzero b hb
  have hcore : ∀ {s : String}, s.toList.head? = some 't' → String.ofList ('!' :: c :: cs) ≠ s := by
    rintro _ hs rfl
    simp at hs
  rw [Tag.ofBytes, hbytes, hwhole, Text.Utf8.strict?_eq_some_iff.mpr rfl]
  simp only
  rw [if_neg (hcore rfl), if_neg (hcore rfl), if_neg (hcore rfl), if_neg (hcore rfl),
    String.toList_ofList, hname]
  simp only [Tag.ownName, Tag.custom.injEq]
  split
  next heq => exact nomatch heq
  next heq => exact absurd (List.cons.inj heq).1 hc
  next heq => exact absurd (List.cons.inj heq).1 hc
  next => rfl

/-- The mark alone is its own name. -/
theorem ofBytes_mark : Tag.ofBytes [0x21] = .custom "!" := by
  have hbytes : [0x21] = encode "!" := (Text.Utf8.encode_ofList ['!']).symm
  have htext : Text.Utf8.strict? [0x21] = some "!" := Text.Utf8.strict?_eq_some_iff.mpr hbytes
  simp [Tag.ofBytes, htext, Tag.ownName]

end Provision.Yaml
