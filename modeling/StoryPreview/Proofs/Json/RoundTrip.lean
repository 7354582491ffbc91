import StoryPreview.Proofs.Json.LastValues
import StoryPreview.Proofs.Json.Scanned
/-!
A plain value is read back from its text (`parse?_compact`). The tokens of a value take the reader from where
it expects a value to where the value is complete, with the same arrays and objects open
(`readTokens_tokens`); a value that is nested no deeper than the reader goes loses nothing on the way.
-/
namespace StoryPreview.Json

/-! ## Reading the tokens of a value -/

theorem readTokens_cons {stack stack' : List Frame} {expected expected' : Expected} {t : Token}
    (h : readToken stack expected t = some (stack', expected')) (ts : List Token) :
    readTokens stack expected (t :: ts) = readTokens stack' expected' ts := by
  rw [readTokens, h]

/-- The first item of an array is read like any other value. -/
theorem readTokens_firstItem (stack : List Frame) (v : Json) (ts : List Token) :
    readTokens stack .firstItem (v.tokens ++ ts) = readTokens stack .value (v.tokens ++ ts) := by
  cases v with
  | array items => cases items <;> rfl
  | object fields => cases fields <;> rfl
  | _ => rfl

theorem nested_of_lt {stack : List Frame} (h : stack.length < maxDepth) (v : Json) : nested stack v = v := by
  rw [nested, if_pos (by rw [List.length_take]; omega)]

theorem objectOf_some (fields : List (String × Json)) :
    objectOf (fields.map fun f => (some f.1, f.2)) = .object fields.reverse := by
  have hkeys : (fields.map fun f => (some f.1, f.2)).all (fun f => f.1.isSome) = true := by simp
  have hback : (fun f : Option String × Json => (f.1.getD "", f.2)) ∘
      (fun f : String × Json => (some f.1, f.2)) = id := rfl
  rw [objectOf, if_pos hkeys, ← List.map_reverse, List.map_map, hback, List.map_id]

/-- The value is read where `n` arrays and objects in one another still fit. -/
def Reads (n : Nat) (v : Json) : Prop :=
  ∀ (stack : List Frame) (ts : List Token), stack.length + n ≤ maxDepth →
    readTokens stack .value (v.tokens ++ ts) = readTokens stack (.after v) ts

theorem readTokens_itemTokens {n : Nat} {vs : List Json} (h : ∀ v ∈ vs, Reads n v) (stack : List Frame)
    (hstack : stack.length + (n + 1) ≤ maxDepth) (v : Json) (read : List Json) (ts : List Token) :
    readTokens (.array read :: stack) (.after v) (itemTokens vs ++ ts) =
      readTokens stack (.after (.array ((v :: read).reverse ++ vs))) ts := by
  induction vs generalizing v read with
  | nil =>
    have hclose : readToken (.array read :: stack) (.after v) .closeArray =
        some (stack, .after (nested stack (.array (v :: read).reverse))) := rfl
    rw [itemTokens, List.singleton_append, readTokens_cons hclose, nested_of_lt (by omega), List.append_nil]
  | cons w vs ih =>
    have hcomma : readToken (.array read :: stack) (.after v) .comma =
        some (.array (v :: read) :: stack, .value) := rfl
    rw [itemTokens, List.cons_append, List.cons_append, readTokens_cons hcomma, List.append_assoc,
      h w List.mem_cons_self _ _ (by rw [List.length_cons]; omega),
      ih fun u hu => h u (List.mem_cons_of_mem w hu)]
    simp

theorem Reads.array {n : Nat} {items : List Json} (h : ∀ v ∈ items, Reads n v) :
    Reads (n + 1) (.array items) := by
  intro stack ts hstack
  have hopen : readToken stack .value .openArray = some (.array [] :: stack, .firstItem) := rfl
  cases items with
  | nil =>
    have hclose : readToken (.array [] :: stack) .firstItem .closeArray =
        some (stack, .after (nested stack (.array []))) := rfl
    rw [tokens, List.cons_append, readTokens_cons hopen, List.singleton_append, readTokens_cons hclose,
      nested_of_lt (by omega)]
  | cons v vs =>
    rw [tokens, List.cons_append, List.cons_append, readTokens_cons hopen, List.append_assoc,
      readTokens_firstItem, h v List.mem_cons_self _ _ (by rw [List.length_cons]; omega),
      readTokens_itemTokens (fun u hu => h u (List.mem_cons_of_mem v hu)) stack hstack]
    rfl

theorem readTokens_fieldTokens {n : Nat} {fs : List (String × Json)} (h : ∀ f ∈ fs, Reads n f.2)
    (stack : List Frame) (hstack : stack.length + (n + 1) ≤ maxDepth) (k : String) (v : Json)
    (read : List (String × Json)) (ts : List Token) :
    readTokens (.object (read.map fun f => (some f.1, f.2)) (some k) :: stack) (.after v)
        (fieldTokens fs ++ ts) =
      readTokens stack (.after (.object (((k, v) :: read).reverse ++ fs))) ts := by
  induction fs generalizing k v read with
  | nil =>
    have hclose :
        readToken (.object (read.map fun f => (some f.1, f.2)) (some k) :: stack) (.after v) .closeObject =
          some (stack, .after (nested stack
            (objectOf (((k, v) :: read).map fun f => (some f.1, f.2))))) := rfl
    rw [fieldTokens, List.singleton_append, readTokens_cons hclose, objectOf_some, nested_of_lt (by omega),
      List.append_nil]
  | cons f fs ih =>
    obtain ⟨l, w⟩ := f
    have hcomma :
        readToken (.object (read.map fun f => (some f.1, f.2)) (some k) :: stack) (.after v) .comma =
          some (stack, .key (((k, v) :: read).map fun f => (some f.1, f.2))) := rfl
    have hkey (fields : List (Option String × Json)) :
        readToken stack (.key fields) (.text (some l)) = some (stack, .colon fields (some l)) := rfl
    have hcolon (fields : List (Option String × Json)) :
        readToken stack (.colon fields (some l)) .colon =
          some (.object fields (some l) :: stack, .value) := rfl
    have htokens : fieldTokens ((l, w) :: fs) ++ ts =
        .comma :: .text (some l) :: .colon :: (w.tokens ++ (fieldTokens fs ++ ts)) := by
      simp [fieldTokens]
    rw [htokens, readTokens_cons hcomma, readTokens_cons (hkey _), readTokens_cons (hcolon _),
      h (l, w) List.mem_cons_self _ _ (by rw [List.length_cons]; omega),
      ih fun g hg => h g (List.mem_cons_of_mem _ hg)]
    simp

theorem Reads.object {n : Nat} {fields : List (String × Json)} (h : ∀ f ∈ fields, Reads n f.2) :
    Reads (n + 1) (.object fields) := by
  intro stack ts hstack
  have hopen : readToken stack .value .openObject = some (stack, .firstKey) := rfl
  cases fields with
  | nil =>
    have hclose : readToken stack .firstKey .closeObject =
        some (stack, .after (nested stack (.object []))) := rfl
    rw [tokens, List.cons_append, readTokens_cons hopen, List.singleton_append, readTokens_cons hclose,
      nested_of_lt (by omega)]
  | cons f fs =>
    obtain ⟨k, v⟩ := f
    have hkey : readToken stack .firstKey (.text (some k)) = some (stack, .colon [] (some k)) := rfl
    have hcolon : readToken stack (.colon [] (some k)) .colon =
        some (.object [] (some k) :: stack, .value) := rfl
    have htokens : (Json.object ((k, v) :: fs)).tokens ++ ts =
        .openObject :: .text (some k) :: .colon :: (v.tokens ++ (fieldTokens fs ++ ts)) := by
      simp [tokens]
    rw [htokens, readTokens_cons hopen, readTokens_cons hkey, readTokens_cons hcolon,
      h (k, v) List.mem_cons_self _ _ (by rw [List.length_cons]; omega)]
    exact readTokens_fieldTokens (fun g hg => h g (List.mem_cons_of_mem _ hg)) stack hstack k v [] ts

/-- A plain value is read where there is room for it. -/
theorem reads_of_plain {n : Nat} {v : Json} (h : Plain n v) : Reads n v := by
  induction h with
  | null n => exact fun _ _ _ => rfl
  | bool n b => exact fun _ _ _ => rfl
  | integer n h => exact fun _ _ _ => rfl
  | text n s => exact fun _ _ _ => rfl
  | array plain ih => exact .array ih
  | object once plain ih => exact .object ih

/-! ## Values that stand for something -/

theorem allValid_eq (vs : List Json) : allValid vs = vs.all isValid := by
  induction vs with
  | nil => rfl
  | cons v vs ih => rw [allValid, ih, List.all_cons]

theorem allFieldsValid_eq (fs : List (String × Json)) : allFieldsValid fs = fs.all fun f => f.2.isValid := by
  induction fs with
  | nil => rfl
  | cons f fs ih => rw [allFieldsValid, ih, List.all_cons]

theorem isValid_of_plain {n : Nat} {v : Json} (h : Plain n v) : v.isValid := by
  induction h with
  | null n => rfl
  | bool n b => rfl
  | integer n h => rfl
  | text n s => rfl
  | array plain ih => rw [isValid, allValid_eq, List.all_eq_true]; exact ih
  | object once plain ih => rw [isValid, allFieldsValid_eq, List.all_eq_true]; exact ih

theorem keysOnce_of_plain {n : Nat} {v : Json} (h : Plain n v) : v.KeysOnce := by
  induction h with
  | null n => exact .null
  | bool n b => exact .bool b
  | integer n h => exact .number _
  | text n s => exact .text s
  | array _ ih => exact .array ih
  | object once _ ih => exact .object once ih

/-! ## The text of a value -/

/-- A plain value is read back from its text. -/
theorem parse?_compact {n : Nat} {v : Json} (h : Plain n v) (hn : n ≤ maxDepth) :
    parse? v.compact = some v := by
  have hreads : readTokens [] .value v.tokens = some ([], .after v) := by
    have htokens := reads_of_plain h [] [] (by simpa using hn)
    rwa [List.append_nil] at htokens
  rw [parse?, read?, compact, String.toList_ofList, tokens?_write h, Option.bind_some, hreads]
  simp [isValid_of_plain h]

/-- The text of a plain value is one line, without a line feed or a carriage return. -/
theorem printable_compact {n : Nat} {v : Json} (h : Plain n v) : Printable v.compact.toList := by
  rw [compact, String.toList_ofList]
  exact printable_of_plain h

end StoryPreview.Json
