import Mathlib.Data.List.TakeWhile
import StoryPreview.Json.Reader
/-!
What the scanner makes of a written value. A plain value (`Plain`) holds no number but whole ones of 64 bits
and no key twice in one object, and is nested up to a given depth. Written and scanned again it gives its own
tokens and nothing else (`tokens?_write`): the escapes of a text give its characters back (`scan_writeText`),
and the digits of a number the number (`scalar?_integer`). No character that is written is a control
character (`printable_of_plain`), so a written value is one line.
-/
namespace StoryPreview.Json

/-- What 64 bits hold, with a sign or without. -/
def InRange (i : Int) : Prop := -9223372036854775808 ≤ i ∧ i < 18446744073709551616

/-- `null`, truth values, whole numbers of 64 bits and texts, in arrays and in objects that have each key once,
no more than `n` of which are nested in one another. -/
inductive Plain : Nat → Json → Prop
  | null (n : Nat) : Plain n .null
  | bool (n : Nat) (b : Bool) : Plain n (.bool b)
  | integer (n : Nat) {i : Int} (h : InRange i) : Plain n (.number (.integer i))
  | text (n : Nat) (s : String) : Plain n (.text s)
  | array {n : Nat} {items : List Json} (plain : ∀ v ∈ items, Plain n v) : Plain (n + 1) (.array items)
  | object {n : Nat} {fields : List (String × Json)} (once : (fields.map Prod.fst).Nodup)
      (plain : ∀ f ∈ fields, Plain n f.2) : Plain (n + 1) (.object fields)

theorem Plain.nat (n : Nat) {k : Nat} (h : k < UInt64.size) : Plain n (.nat k) := by
  have hk : k < 18446744073709551616 := h
  exact .integer n ⟨by omega, by omega⟩

mutual
/-- The tokens of a value. -/
def tokens : Json → List Token
  | .text s => [.text (some s)]
  | .array [] => [.openArray, .closeArray]
  | .array (v :: vs) => .openArray :: v.tokens ++ itemTokens vs
  | .object [] => [.openObject, .closeObject]
  | .object ((k, v) :: fs) => .openObject :: .text (some k) :: .colon :: v.tokens ++ fieldTokens fs
  | v => [.scalar v]

/-- The tokens of the items after the first, and of the bracket. -/
def itemTokens : List Json → List Token
  | [] => [.closeArray]
  | v :: vs => .comma :: v.tokens ++ itemTokens vs

/-- The tokens of the fields after the first, and of the brace. -/
def fieldTokens : List (String × Json) → List Token
  | [] => [.closeObject]
  | (k, v) :: fs => .comma :: .text (some k) :: .colon :: v.tokens ++ fieldTokens fs
end

theorem write_object_cons (k : String) (v : Json) (fs : List (String × Json)) :
    (Json.object ((k, v) :: fs)).write = '{' :: (writeText k ++ ':' :: (v.write ++ writeFields fs)) := by
  simp [write]

theorem writeFields_cons (k : String) (v : Json) (fs : List (String × Json)) :
    writeFields ((k, v) :: fs) = ',' :: (writeText k ++ ':' :: (v.write ++ writeFields fs)) := by
  simp [writeFields]

/-! ## Numbers -/

theorem ofDigits_toDigits (n : Nat) : Number.ofDigits (Nat.toDigits 10 n) = n := by
  have hfold : Number.ofDigits (Nat.toDigits 10 n) = Nat.ofDigitChars 10 (Nat.toDigits 10 n) 0 := by
    rw [Number.ofDigits_eq_foldl, Nat.ofDigitChars_eq_foldl]
    rfl
  rw [hfold, Nat.ofDigitChars_ten_toDigits]

/-- A positive number does not begin with a zero. -/
theorem toDigits_head {n : Nat} (h : 0 < n) : ∃ c cs, Nat.toDigits 10 n = c :: cs ∧ c ≠ '0' := by
  induction n using Nat.strong_induction_on with
  | _ n ih =>
    rcases Nat.lt_or_ge n 10 with hlt | hge
    · have hdigit : ∀ n < 10, 0 < n → n.digitChar ≠ '0' := by decide
      exact ⟨n.digitChar, [], Nat.toDigits_of_lt_base hlt, hdigit n hlt h⟩
    · obtain ⟨c, cs, heq, hc⟩ := ih (n / 10) (by omega) (by omega)
      exact ⟨c, cs ++ [(n % 10).digitChar],
        by rw [Nat.toDigits_of_base_le (by omega) hge, heq, List.cons_append], hc⟩

theorem toDigits_no_leading_zero (n : Nat) (c : Char) (cs : List Char) :
    Nat.toDigits 10 n ≠ '0' :: c :: cs := by
  rcases Nat.eq_zero_or_pos n with rfl | hpos
  · simp
  · obtain ⟨d, ds, heq, hd⟩ := toDigits_head hpos
    rw [heq]
    exact fun h => hd (List.cons_eq_cons.1 h).1

theorem isDigit_of_mem_toDigits {n : Nat} {c : Char} (h : c ∈ Nat.toDigits 10 n) : c.isDigit :=
  Nat.isDigit_of_mem_toDigits (by omega) (by omega) h

/-- The digits of a number, with a minus sign or without, are a number without a fraction. -/
theorem number?_toDigits (negative : Bool) (n : Nat) :
    number? ((if negative then ['-'] else []) ++ Nat.toDigits 10 n) =
      some (numberOf negative (Nat.toDigits 10 n) [] none) := by
  have hwhole : (Nat.toDigits 10 n).takeWhile Char.isDigit = Nat.toDigits 10 n :=
    List.takeWhile_eq_self_iff.2 fun _ => isDigit_of_mem_toDigits
  have hrest : (Nat.toDigits 10 n).dropWhile Char.isDigit = [] :=
    List.dropWhile_eq_nil_iff.2 fun _ => isDigit_of_mem_toDigits
  have hne : Nat.toDigits 10 n ≠ [] := Nat.toDigits_ne_nil
  have hminus (r : List Char) : Nat.toDigits 10 n ≠ '-' :: r := fun h =>
    absurd (isDigit_of_mem_toDigits (h ▸ List.mem_cons_self)) (by decide : ¬ '-'.isDigit)
  unfold number?
  split
  next sign rest hsign =>
  obtain ⟨rfl, rfl⟩ : sign = negative ∧ rest = Nat.toDigits 10 n := by
    cases negative with
    | true => simpa using hsign.symm
    | false =>
      split at hsign
      · next h => exact absurd h (hminus _)
      · simpa using hsign.symm
  rw [hwhole, hrest]
  dsimp only
  split
  · next h => exact absurd h (toDigits_no_leading_zero n _ _)
  · rw [if_neg (by simp [hne])]
    rfl

/-- A negative number has a minus sign before its digits, and no other number has one. -/
theorem writeNumber_integer (i : Int) :
    writeNumber (.integer i) = (if i < 0 then ['-'] else []) ++ Nat.toDigits 10 i.natAbs := by
  cases i with
  | ofNat n => simp [writeNumber, Int.toString_eq_repr, Int.repr]
  | negSucc n =>
    have hwrite : writeNumber (.integer (Int.negSucc n)) = ("-" ++ (n + 1).repr).toList := rfl
    simp [hwrite, String.toList_append]

theorem mem_writeNumber {i : Int} {c : Char} (h : c ∈ writeNumber (.integer i)) :
    c = '-' ∨ c.isDigit := by
  rw [writeNumber_integer, List.mem_append] at h
  refine h.imp (fun hsign => ?_) isDigit_of_mem_toDigits
  split at hsign
  · exact List.mem_singleton.1 hsign
  · exact absurd hsign List.not_mem_nil

/-- A whole number of 64 bits is read back from its digits. -/
theorem scalar?_integer {i : Int} (h : InRange i) :
    scalar? (writeNumber (.integer i)) = some (.number (.integer i)) := by
  have hno {c : Char} {cs : List Char} (hc : c ≠ '-' ∧ c.isDigit = false) :
      writeNumber (.integer i) ≠ c :: cs := by
    intro h
    rcases mem_writeNumber (h ▸ List.mem_cons_self) with heq | hdigit
    · exact hc.1 heq
    · exact absurd hdigit (by simp [hc.2])
  have hread := number?_toDigits (decide (i < 0)) i.natAbs
  simp only [decide_eq_true_eq] at hread
  rw [scalar?, if_neg (hno (by decide)), if_neg (hno (by decide)), if_neg (hno (by decide)),
    writeNumber_integer, hread, numberOf, ofDigits_toDigits]
  obtain ⟨low, high⟩ := h
  by_cases hneg : i < 0
  · have hrange : 0 < i.natAbs ∧ i.natAbs ≤ 9223372036854775808 := by omega
    have habs : -(i.natAbs : Int) = i := by omega
    rw [if_pos (by simp [hneg, hrange])]
    simp only [hneg, decide_true, if_true, habs]
  · have hrange : i.natAbs < 18446744073709551616 := by omega
    have habs : (i.natAbs : Int) = i := by omega
    rw [if_pos (by simp [hneg, hrange])]
    simp only [hneg, decide_false, Bool.false_eq_true, if_false, habs]

/-! ## Texts -/

theorem scan_cons {place place' : Place} {done done' : List Token} {c : Char}
    (h : scanChar place done c = some (place', done')) (cs : List Char) :
    scan place done (c :: cs) = scan place' done' cs := by
  rw [scan, h]

theorem hexDigit?_digitChar : ∀ n < 16, hexDigit? n.digitChar = some n := by decide

/-- A control character has a number of two digits, the first of which is a zero or a one. -/
theorem toDigits_control : ∀ n < 32, 16 ≤ n → Nat.toDigits 16 n = ['1', (n - 16).digitChar] := by decide

theorem scan_hex (t : PartialText) (done : List Token) {a b c d : Char} {w x y z : Nat}
    (ha : hexDigit? a = some w) (hb : hexDigit? b = some x) (hc : hexDigit? c = some y)
    (hd : hexDigit? d = some z) (rest : List Char) :
    scan (.text t) done ('\\' :: 'u' :: a :: b :: c :: d :: rest) =
      scan (.text (t.pushUnit (16 * (16 * (16 * w + x) + y) + z))) done rest := by
  simp [scan, scanChar, ha, hb, hc, hd]

theorem pushUnit_control (t : PartialText) {c : Char} (h : c.toNat < 32) :
    t.pushUnit c.toNat = t.push c := by
  rw [PartialText.pushUnit, if_neg (by simp; omega), if_neg (by simp; omega), Char.ofNat_toNat]

/-- A character of a text is read back from the way it is written. -/
theorem scan_writeChar (t : PartialText) (done : List Token) (c : Char) (rest : List Char) :
    scan (.text t) done (writeChar c ++ rest) = scan (.text (t.push c)) done rest := by
  unfold writeChar
  split_ifs with hquote hbackslash hfeed hreturn htab hback hform hlow hcontrol
  · rw [hquote]; rfl
  · rw [hbackslash]; rfl
  · rw [hfeed]; rfl
  · rw [hreturn]; rfl
  · rw [htab]; rfl
  · rw [hback]; rfl
  · rw [hform]; rfl
  · have hhex := scan_hex t done (hexDigit?_digitChar 0 (by omega)) (hexDigit?_digitChar 0 (by omega))
      (hexDigit?_digitChar 0 (by omega)) (hexDigit?_digitChar c.toNat hlow) rest
    have hvalue : 16 * (16 * (16 * 0 + 0) + 0) + c.toNat = c.toNat := by omega
    rw [hvalue] at hhex
    rw [← pushUnit_control t (by omega), Nat.toDigits_of_lt_base hlow]
    exact hhex
  · have hhex := scan_hex t done (hexDigit?_digitChar 0 (by omega)) (hexDigit?_digitChar 0 (by omega))
      (hexDigit?_digitChar 1 (by omega)) (hexDigit?_digitChar (c.toNat - 16) (by omega)) rest
    have hvalue : 16 * (16 * (16 * 0 + 0) + 1) + (c.toNat - 16) = c.toNat := by omega
    rw [hvalue] at hhex
    rw [← pushUnit_control t hcontrol, toDigits_control c.toNat hcontrol (by omega)]
    exact hhex
  · have hplain : scanChar (.text t) done c = some (.text (t.push c), done) := by
      rw [scanChar, if_neg hquote, if_neg hbackslash, if_neg hcontrol]
    rw [List.singleton_append, scan_cons hplain]

/-- The characters of a text, one after another. -/
theorem scan_flatMap_writeChar (t : PartialText) (done : List Token) (cs rest : List Char) :
    scan (.text t) done (cs.flatMap writeChar ++ rest) =
      scan (.text (cs.foldl PartialText.push t)) done rest := by
  induction cs generalizing t with
  | nil => rfl
  | cons c cs ih => rw [List.flatMap_cons, List.append_assoc, scan_writeChar, ih, List.foldl_cons]

theorem foldl_push (cs read : List Char) :
    cs.foldl PartialText.push ⟨read, none, true⟩ = ⟨cs.reverse ++ read, none, true⟩ := by
  induction cs generalizing read with
  | nil => rfl
  | cons c cs ih =>
    have hpush : PartialText.push ⟨read, none, true⟩ c = ⟨c :: read, none, true⟩ := rfl
    rw [List.foldl_cons, hpush, ih, List.reverse_cons, List.append_assoc, List.singleton_append]

theorem finish_foldl_push (s : String) :
    (s.toList.foldl PartialText.push .empty).finish = some s := by
  rw [PartialText.empty, foldl_push, List.append_nil]
  simp [PartialText.finish]

/-- A text between quotes is one token. -/
theorem scan_writeText (done : List Token) (s : String) (rest : List Char) :
    scan .between done (writeText s ++ rest) = scan .between (.text (some s) :: done) rest := by
  have hopen : writeText s ++ rest = '"' :: (s.toList.flatMap writeChar ++ '"' :: rest) := by
    simp [writeText]
  have hclose (t : PartialText) :
      scan (.text t) done ('"' :: rest) = scan .between (.text t.finish :: done) rest := rfl
  have hbegin (cs : List Char) : scan .between done ('"' :: cs) = scan (.text .empty) done cs := rfl
  rw [hopen, hbegin, scan_flatMap_writeChar, hclose, finish_foldl_push]

/-! ## Values -/

/-- The characters of a word: those that neither begin another token nor stand between two. -/
def InWord (c : Char) : Prop := isSpace c = false ∧ c ≠ '"' ∧ punctuation? c = none

theorem scan_word (done : List Token) {cs : List Char} (h : ∀ c ∈ cs, InWord c) (read rest : List Char) :
    scan (.word read) done (cs ++ rest) = scan (.word (cs.reverse ++ read)) done rest := by
  induction cs generalizing read with
  | nil => rfl
  | cons c cs ih =>
    obtain ⟨hspace, hquote, hpunct⟩ := h c List.mem_cons_self
    have hstep : scanChar (.word read) done c = some (.word (c :: read), done) := by
      rw [scanChar, if_neg (by simp [hspace, hquote, hpunct])]
    rw [List.cons_append, scan_cons hstep, ih fun d hd => h d (List.mem_cons_of_mem c hd), List.reverse_cons,
      List.append_assoc, List.singleton_append]

/-- A scalar that is not a text: its word is read back. -/
structure IsWord (v : Json) : Prop where
  nonempty : v.write ≠ []
  inWord : ∀ c ∈ v.write, InWord c
  reads : scalar? v.write = some v

theorem IsWord.null : IsWord .null where
  nonempty := by decide
  inWord := by simp [write, InWord, isSpace, punctuation?]
  reads := rfl

theorem IsWord.bool (b : Bool) : IsWord (.bool b) where
  nonempty := by cases b <;> decide
  inWord := by cases b <;> simp [write, InWord, isSpace, punctuation?]
  reads := by cases b <;> rfl

theorem inWord_of_isDigit {c : Char} (h : c.isDigit) : InWord c := by
  have hno {d : Char} (hd : d.isDigit = false) : c ≠ d := by
    rintro rfl
    simp [hd] at h
  simp [InWord, isSpace, punctuation?, hno]

theorem IsWord.integer {i : Int} (h : InRange i) : IsWord (.number (.integer i)) where
  nonempty := by simp [write, writeNumber_integer, Nat.toDigits_ne_nil]
  inWord := by
    intro c hc
    rcases mem_writeNumber hc with rfl | hdigit
    · simp [InWord, isSpace, punctuation?]
    · exact inWord_of_isDigit hdigit
  reads := scalar?_integer h

theorem scan_isWord {v : Json} (h : IsWord v) (done : List Token) (rest : List Char) :
    scan .between done (v.write ++ rest) = scan (.word v.write.reverse) done rest := by
  obtain ⟨c, cs, heq⟩ := List.exists_cons_of_ne_nil h.nonempty
  obtain ⟨hspace, hquote, hpunct⟩ := h.inWord c (heq ▸ List.mem_cons_self)
  have hstart : scanChar .between done c = some (.word [c], done) := by
    rw [scanChar, startToken, if_neg (by simp [hspace]), if_neg hquote, hpunct]
  rw [heq, List.cons_append, scan_cons hstart,
    scan_word done (fun d hd => h.inWord d (heq ▸ List.mem_cons_of_mem c hd)), List.reverse_cons]

/-- What may follow a value: a text that begins with a bracket, a brace, a comma or a colon. -/
def Delimited (cs : List Char) : Prop := ∃ d rest, cs = d :: rest ∧ (punctuation? d).isSome

theorem delimited_writeItems (vs : List Json) (rest : List Char) : Delimited (writeItems vs ++ rest) := by
  cases vs with
  | nil => exact ⟨']', rest, rfl, by decide⟩
  | cons v vs => exact ⟨',', _, rfl, by decide⟩

theorem delimited_writeFields (fs : List (String × Json)) (rest : List Char) :
    Delimited (writeFields fs ++ rest) := by
  cases fs with
  | nil => exact ⟨'}', rest, rfl, by decide⟩
  | cons f fs => exact ⟨',', _, rfl, by decide⟩

/-- In front of what may follow it, the value gives its tokens, and the scanner is between two tokens. -/
def Scans (v : Json) : Prop :=
  ∀ (done : List Token) (cs : List Char), Delimited cs →
    scan .between done (v.write ++ cs) = scan .between (v.tokens.reverse ++ done) cs

/-- A word ends where another token begins. -/
theorem IsWord.scans {v : Json} (h : IsWord v) (hone : v.tokens = [.scalar v]) : Scans v := by
  rintro done _ ⟨d, rest, rfl, hd⟩
  have hend : scanChar (.word v.write.reverse) done d = some (startToken (.scalar v :: done) d) := by
    rw [scanChar, if_pos (by simp [hd]), List.reverse_reverse, h.reads, Option.map_some]
  have hnext : scanChar .between (.scalar v :: done) d = some (startToken (.scalar v :: done) d) := rfl
  rw [scan_isWord h, scan_cons hend, hone, List.reverse_singleton, List.singleton_append, scan_cons hnext]

theorem scan_writeItems {vs : List Json} (h : ∀ v ∈ vs, Scans v) (done : List Token) (rest : List Char) :
    scan .between done (writeItems vs ++ rest) = scan .between ((itemTokens vs).reverse ++ done) rest := by
  induction vs generalizing done with
  | nil => rfl
  | cons v vs ih =>
    have hcomma (cs : List Char) : scan .between done (',' :: cs) = scan .between (.comma :: done) cs := rfl
    rw [writeItems, List.cons_append, List.cons_append, hcomma, List.append_assoc,
      h v List.mem_cons_self _ _ (delimited_writeItems vs rest),
      ih (fun w hw => h w (List.mem_cons_of_mem v hw)), itemTokens]
    simp

/-- What stands behind a key: the value and the other fields. -/
theorem scan_field {v : Json} (hv : Scans v) (done : List Token) (k : String) (fs : List (String × Json))
    (rest : List Char) :
    scan .between done (writeText k ++ ':' :: (v.write ++ (writeFields fs ++ rest))) =
      scan .between (v.tokens.reverse ++ .colon :: .text (some k) :: done) (writeFields fs ++ rest) := by
  have hcolon (done : List Token) (cs : List Char) :
      scan .between done (':' :: cs) = scan .between (.colon :: done) cs := rfl
  rw [scan_writeText, hcolon, hv _ _ (delimited_writeFields fs rest)]

theorem scan_writeFields {fs : List (String × Json)} (h : ∀ f ∈ fs, Scans f.2) (done : List Token)
    (rest : List Char) :
    scan .between done (writeFields fs ++ rest) = scan .between ((fieldTokens fs).reverse ++ done) rest := by
  induction fs generalizing done with
  | nil => rfl
  | cons f fs ih =>
    obtain ⟨k, v⟩ := f
    have hcomma (cs : List Char) : scan .between done (',' :: cs) = scan .between (.comma :: done) cs := rfl
    have hwrite : writeFields ((k, v) :: fs) ++ rest =
        ',' :: (writeText k ++ ':' :: (v.write ++ (writeFields fs ++ rest))) := by
      simp [writeFields_cons]
    rw [hwrite, hcomma, scan_field (h (k, v) List.mem_cons_self),
      ih (fun g hg => h g (List.mem_cons_of_mem _ hg)), fieldTokens]
    simp

/-- An array gives its tokens, whatever follows it. -/
theorem scan_array {items : List Json} (h : ∀ v ∈ items, Scans v) (done : List Token) (rest : List Char) :
    scan .between done ((Json.array items).write ++ rest) =
      scan .between ((Json.array items).tokens.reverse ++ done) rest := by
  cases items with
  | nil => rfl
  | cons v vs =>
    have hopen (cs : List Char) :
        scan .between done ('[' :: cs) = scan .between (.openArray :: done) cs := rfl
    rw [write, List.cons_append, List.cons_append, hopen, List.append_assoc,
      h v List.mem_cons_self _ _ (delimited_writeItems vs rest),
      scan_writeItems (fun w hw => h w (List.mem_cons_of_mem v hw)), tokens]
    simp

/-- An object gives its tokens, whatever follows it. -/
theorem scan_object {fields : List (String × Json)} (h : ∀ f ∈ fields, Scans f.2) (done : List Token)
    (rest : List Char) :
    scan .between done ((Json.object fields).write ++ rest) =
      scan .between ((Json.object fields).tokens.reverse ++ done) rest := by
  cases fields with
  | nil => rfl
  | cons f fs =>
    obtain ⟨k, v⟩ := f
    have hopen (cs : List Char) :
        scan .between done ('{' :: cs) = scan .between (.openObject :: done) cs := rfl
    have hwrite : (Json.object ((k, v) :: fs)).write ++ rest =
        '{' :: (writeText k ++ ':' :: (v.write ++ (writeFields fs ++ rest))) := by
      simp [write_object_cons]
    rw [hwrite, hopen, scan_field (h (k, v) List.mem_cons_self),
      scan_writeFields (fun g hg => h g (List.mem_cons_of_mem _ hg)), tokens]
    simp

theorem scans_of_plain {n : Nat} {v : Json} (h : Plain n v) : Scans v := by
  induction h with
  | null n => exact IsWord.null.scans rfl
  | bool n b => exact (IsWord.bool b).scans rfl
  | integer n h => exact (IsWord.integer h).scans rfl
  | text n s => exact fun done cs _ => scan_writeText done s cs
  | array plain ih => exact fun done cs _ => scan_array ih done cs
  | object once plain ih => exact fun done cs _ => scan_object ih done cs

theorem IsWord.tokens?_write {v : Json} (h : IsWord v) (hone : v.tokens = [.scalar v]) :
    tokens? v.write = some v.tokens := by
  have hscan := scan_isWord h [] []
  rw [List.append_nil] at hscan
  have hword : scan (.word v.write.reverse) [] [] = some (.word v.write.reverse, []) := rfl
  rw [tokens?, hscan, hword, hone]
  simp [h.reads]

/-- The whole text of a plain value gives its tokens. -/
theorem tokens?_write {n : Nat} {v : Json} (h : Plain n v) : tokens? v.write = some v.tokens := by
  have hwhole (hscan : scan .between [] (v.write ++ []) = scan .between (v.tokens.reverse ++ []) []) :
      tokens? v.write = some v.tokens := by
    have hend : scan .between v.tokens.reverse [] = some (.between, v.tokens.reverse) := rfl
    rw [List.append_nil, List.append_nil, hend] at hscan
    rw [tokens?, hscan]
    simp
  cases h with
  | null => exact IsWord.null.tokens?_write rfl
  | bool n b => exact (IsWord.bool b).tokens?_write rfl
  | integer n h => exact (IsWord.integer h).tokens?_write rfl
  | text n s => exact hwhole (scan_writeText [] s [])
  | array plain => exact hwhole (scan_array (fun v hv => scans_of_plain (plain v hv)) [] [])
  | object once plain => exact hwhole (scan_object (fun f hf => scans_of_plain (plain f hf)) [] [])

/-! ## One line -/

/-- No character is a control character; in particular none is a line feed or a carriage return. -/
def Printable (cs : List Char) : Prop := ∀ c ∈ cs, 32 ≤ c.toNat

instance : DecidablePred Printable := fun cs => List.decidableBAll _ cs

theorem Printable.append {a b : List Char} (ha : Printable a) (hb : Printable b) : Printable (a ++ b) :=
  fun c hc => (List.mem_append.1 hc).elim (ha c) (hb c)

theorem Printable.cons {c : Char} (hc : 32 ≤ c.toNat) {cs : List Char} (h : Printable cs) :
    Printable (c :: cs) :=
  fun d hd => (List.mem_cons.1 hd).elim (fun heq => heq ▸ hc) (h d)

theorem printable_digit : ∀ n < 16, Printable [n.digitChar] := by decide

theorem printable_writeChar (c : Char) : Printable (writeChar c) := by
  unfold writeChar
  split_ifs with hquote hbackslash hfeed hreturn htab hback hform hlow hcontrol
  -- the short escapes
  iterate 7 decide
  · rw [Nat.toDigits_of_lt_base hlow]
    exact Printable.append (by decide) (printable_digit c.toNat hlow)
  · rw [toDigits_control c.toNat hcontrol (by omega)]
    exact Printable.append (by decide)
      (Printable.cons (by decide) (printable_digit (c.toNat - 16) (by omega)))
  · exact fun d hd => List.mem_singleton.1 hd ▸ Nat.le_of_not_lt hcontrol

theorem printable_writeText (s : String) : Printable (writeText s) := by
  refine Printable.cons (by decide) (Printable.append (fun c hc => ?_) (by decide))
  obtain ⟨d, -, hd⟩ := List.mem_flatMap.1 hc
  exact printable_writeChar d c hd

theorem printable_integer (i : Int) : Printable (writeNumber (.integer i)) := by
  intro c hc
  rcases mem_writeNumber hc with rfl | hdigit
  · decide
  · have hlow : '0'.toNat ≤ c.toNat := (Char.isDigit_iff_toNat.1 hdigit).1
    have hzero : '0'.toNat = 48 := rfl
    omega

theorem printable_writeItems {vs : List Json} (h : ∀ v ∈ vs, Printable v.write) :
    Printable (writeItems vs) := by
  induction vs with
  | nil => decide
  | cons v vs ih =>
    rw [writeItems, List.cons_append]
    exact .cons (by decide)
      (.append (h v List.mem_cons_self) (ih fun w hw => h w (List.mem_cons_of_mem v hw)))

theorem printable_writeFields {fs : List (String × Json)} (h : ∀ f ∈ fs, Printable f.2.write) :
    Printable (writeFields fs) := by
  induction fs with
  | nil => decide
  | cons f fs ih =>
    obtain ⟨k, v⟩ := f
    rw [writeFields_cons]
    exact .cons (by decide) (.append (printable_writeText k) (.cons (by decide)
      (.append (h (k, v) List.mem_cons_self) (ih fun g hg => h g (List.mem_cons_of_mem _ hg)))))

/-- A plain value is written without control characters. -/
theorem printable_of_plain {n : Nat} {v : Json} (h : Plain n v) : Printable v.write := by
  induction h with
  | null n => decide
  | bool n b => cases b <;> decide
  | integer n h => exact printable_integer _
  | text n s => exact printable_writeText s
  | @array n items plain ih =>
    cases items with
    | nil => decide
    | cons v vs =>
      rw [write, List.cons_append]
      exact .cons (by decide) (.append (ih v List.mem_cons_self)
        (printable_writeItems fun w hw => ih w (List.mem_cons_of_mem v hw)))
  | @object n fields once plain ih =>
    cases fields with
    | nil => decide
    | cons f fs =>
      obtain ⟨k, v⟩ := f
      rw [write_object_cons]
      exact .cons (by decide) (.append (printable_writeText k) (.cons (by decide)
        (.append (ih (k, v) List.mem_cons_self)
          (printable_writeFields fun g hg => ih g (List.mem_cons_of_mem _ hg)))))

end StoryPreview.Json
