import StoryPreview.Json.Record
/-!
Repeated keys. A value that is read twice is first any value, of whose repeated keys the last counts
(`lastWins`). This loses nothing that can be read, for whoever reads a record or a variant wants every field
it knows once, and skips the others (`record?_lastWins`, `variant?_lastWins`). A reader that has this
property (`ReadsLast`) has it in lists, in fields and under another name.
-/
namespace StoryPreview.Json

/-! ## The last value of a key -/

theorem lastWinsItems_eq_map (vs : List Json) : lastWinsItems vs = vs.map lastWins := by
  induction vs with
  | nil => rfl
  | cons v vs ih => rw [lastWinsItems, ih, List.map_cons]

theorem values_cons (key : String) (f : String × Json) (fs : List (String × Json)) :
    values key (f :: fs) = if f.1 = key then f.2 :: values key fs else values key fs := by
  unfold values
  rw [List.filter_cons]
  split <;> simp_all

theorem any_eq_false_iff (key : String) (fs : List (String × Json)) :
    fs.any (fun f => f.1 = key) = false ↔ values key fs = [] := by
  unfold values
  simp

/-- Of the values under a key the last one is left. -/
theorem values_lastWinsFields (key : String) (fields : List (String × Json)) :
    values key (lastWinsFields fields) = ((values key fields).getLast?.map lastWins).toList := by
  induction fields with
  | nil => rfl
  | cons f fs ih =>
    obtain ⟨k, v⟩ := f
    rw [lastWinsFields, values_cons]
    by_cases hk : k = key
    · subst hk
      rw [if_pos rfl]
      cases hvs : values k fs with
      | nil =>
        rw [(any_eq_false_iff k fs).mpr hvs, if_neg Bool.false_ne_true, values_cons, if_pos rfl, ih, hvs]
        rfl
      | cons w ws =>
        have hagain : fs.any (fun f => f.1 = k) = true := by
          rw [← Bool.not_eq_false, any_eq_false_iff, hvs]
          exact List.cons_ne_nil w ws
        rw [hagain, if_pos rfl, ih, hvs, List.getLast?_cons_cons]
    · rw [if_neg hk, ← ih]
      split
      · rfl
      · rw [values_cons, if_neg hk]

/-- Taking a key away and leaving the last value of every key can be done in either order. -/
theorem lastWinsFields_filter (key : String) (fields : List (String × Json)) :
    lastWinsFields (fields.filter fun f => f.1 ≠ key) =
      (lastWinsFields fields).filter fun f => f.1 ≠ key := by
  induction fields with
  | nil => rfl
  | cons f fs ih =>
    obtain ⟨k, v⟩ := f
    by_cases hk : k = key
    · rw [List.filter_cons_of_neg (by simpa using hk), ih, lastWinsFields]
      split
      · rfl
      · rw [List.filter_cons_of_neg (by simpa using hk)]
    · have hany : (fs.filter fun f => f.1 ≠ key).any (fun f => f.1 = k) = fs.any fun f => f.1 = k := by
        rw [List.any_filter]
        refine congrArg (fs.any ·) (funext fun f => ?_)
        by_cases hf : f.1 = k <;> simp [hf, hk]
      rw [List.filter_cons_of_pos (by simpa using hk), lastWinsFields, lastWinsFields, hany, ih]
      split
      · rfl
      · rw [List.filter_cons_of_pos (by simpa using hk)]

/-- No object in the value has a key twice. -/
inductive KeysOnce : Json → Prop
  | null : KeysOnce .null
  | bool (b : Bool) : KeysOnce (.bool b)
  | number (n : JsonNumber) : KeysOnce (.number n)
  | text (s : String) : KeysOnce (.text s)
  | invalid : KeysOnce .invalid
  | array {items : List Json} (h : ∀ v ∈ items, KeysOnce v) : KeysOnce (.array items)
  | object {fields : List (String × Json)} (once : (fields.map Prod.fst).Nodup)
      (h : ∀ f ∈ fields, KeysOnce f.2) : KeysOnce (.object fields)

theorem lastWinsFields_eq {fs : List (String × Json)} (once : (fs.map Prod.fst).Nodup)
    (h : ∀ f ∈ fs, f.2.lastWins = f.2) : lastWinsFields fs = fs := by
  induction fs with
  | nil => rfl
  | cons f fs ih =>
    obtain ⟨k, v⟩ := f
    obtain ⟨hk, hrest⟩ := List.nodup_cons.1 once
    have hlast : fs.any (fun f => f.1 = k) = false := by
      rw [List.any_eq_false]
      intro f hf heq
      have hmem : f.1 ∈ fs.map Prod.fst := List.mem_map_of_mem hf
      rw [of_decide_eq_true heq] at hmem
      exact hk hmem
    have hv : v.lastWins = v := h (k, v) List.mem_cons_self
    rw [lastWinsFields, hlast, if_neg Bool.false_ne_true, hv,
      ih hrest fun g hg => h g (List.mem_cons_of_mem _ hg)]

/-- Where no key stands twice there is nothing that only the last value of a key would leave. -/
theorem KeysOnce.lastWins_eq {v : Json} (h : v.KeysOnce) : v.lastWins = v := by
  induction h with
  | null | bool | number | text | invalid => rfl
  | array _ ih => rw [lastWins, lastWinsItems_eq_map, List.map_congr_left ih, List.map_id']
  | object once _ ih => rw [lastWins, lastWinsFields_eq once ih]

@[simp] theorem asArray?_lastWins_eq_none_iff {v : Json} :
    v.lastWins.asArray? = none ↔ v.asArray? = none := by
  cases v <;> simp [lastWins, asArray?]

/-! ## Readers -/

/-- What is read of a value is read of it when of every key only the last value is left. -/
def ReadsLast (read : Json → Option α) : Prop := ∀ v a, read v = some a → read v.lastWins = some a

theorem readsLast_asText? : ReadsLast asText? := by
  intro v a h
  cases v <;> exact h

theorem readsLast_asBool? : ReadsLast asBool? := by
  intro v a h
  cases v <;> exact h

theorem readsLast_asNat? : ReadsLast asNat? := by
  intro v a h
  cases v <;> exact h

theorem ReadsLast.list? {read : Json → Option α} (h : ReadsLast read) : ReadsLast (list? read) := by
  intro v as hread
  cases v with
  | array items =>
    rw [lastWins, lastWinsItems_eq_map]
    unfold Json.list? at hread ⊢
    dsimp only at hread ⊢
    induction items generalizing as with
    | nil => exact hread
    | cons v items ih =>
      rw [List.mapM_cons] at hread
      obtain ⟨b, hb, hread⟩ := Option.bind_eq_some_iff.mp hread
      obtain ⟨bs, hbs, hread⟩ := Option.bind_eq_some_iff.mp hread
      rw [List.map_cons, List.mapM_cons, h v b hb, ih bs hbs]
      exact hread
  | _ => cases hread

theorem atMostOne_lastWinsFields {key : String} {fields : List (String × Json)} {o : Option Json}
    (h : atMostOne (values key fields) = some o) :
    atMostOne (values key (lastWinsFields fields)) = some (o.map lastWins) := by
  rw [values_lastWinsFields]
  cases hvs : values key fields with
  | nil =>
    rw [hvs] at h
    cases h
    rfl
  | cons v vs =>
    rw [hvs] at h
    cases vs with
    | nil =>
      cases h
      rfl
    | cons w ws => cases h

theorem fieldValues_lastWinsFields {names : List String} {fields : List (String × Json)}
    {vs : List (Option Json)} (h : fieldValues fields names = some vs) :
    fieldValues (lastWinsFields fields) names = some (vs.map (Option.map lastWins)) := by
  induction names generalizing vs with
  | nil =>
    cases h
    rfl
  | cons name names ih =>
    unfold fieldValues at h
    split at h
    · rename_i o os hone hrest
      cases h
      rw [fieldValues, atMostOne_lastWinsFields hone, ih hrest, List.map_cons]
    · cases h

theorem itemValues_lastWinsItems {n : Nat} {items : List Json} {vs : List (Option Json)}
    (h : itemValues n items = some vs) :
    itemValues n (lastWinsItems items) = some (vs.map (Option.map lastWins)) := by
  rw [lastWinsItems_eq_map]
  induction n generalizing items vs with
  | zero =>
    cases items with
    | nil =>
      cases h
      rfl
    | cons v items => cases h
  | succ n ih =>
    cases items with
    | nil =>
      obtain ⟨rest, hrest, rfl⟩ := Option.map_eq_some_iff.mp h
      have hnone := ih hrest
      rw [List.map_nil] at hnone ⊢
      rw [itemValues, hnone]
      rfl
    | cons v items =>
      obtain ⟨rest, hrest, rfl⟩ := Option.map_eq_some_iff.mp h
      rw [List.map_cons, itemValues, ih hrest]
      rfl

theorem record?_lastWins {names : List String} {v : Json} {vs : List (Option Json)}
    (h : record? names v = some vs) : record? names v.lastWins = some (vs.map (Option.map lastWins)) := by
  cases v with
  | object fields => exact fieldValues_lastWinsFields h
  | array items => exact itemValues_lastWinsItems h
  | _ => cases h

theorem tag?_lastWins (setting : Setting) (names : List String) (v : Json) :
    tag? setting names v.lastWins = tag? setting names v := by
  cases v <;> rfl

theorem variant?_lastWins {setting : Setting} {key : String} {names : List String} {v : Json}
    {tag : String} {rest : Json} (h : variant? setting key names v = some (tag, rest)) :
    variant? setting key names v.lastWins = some (tag, rest.lastWins) := by
  cases v with
  | object fields =>
    unfold variant? at h
    dsimp only at h
    split at h
    · rename_i u hu
      obtain ⟨t, ht, hrest⟩ := Option.map_eq_some_iff.mp h
      cases hrest
      have hone : values key (lastWinsFields fields) = [u.lastWins] := by
        rw [values_lastWinsFields, hu]
        rfl
      rw [lastWins, lastWins, lastWinsFields_filter, variant?]
      simp only [hone, tag?_lastWins, ht, Option.map_some]
    · cases h
  | array items =>
    cases items with
    | nil => cases h
    | cons u items =>
      obtain ⟨t, ht, hrest⟩ := Option.map_eq_some_iff.mp h
      cases hrest
      rw [lastWins, lastWins, lastWinsItems, variant?, tag?_lastWins, ht, Option.map_some]
  | _ => cases h

/-- Where numbers stand for no tags a tag is a text. -/
theorem tag?_plain {names : List String} {v : Json} {tag : String}
    (h : tag? .plain names v = some tag) : v = .text tag ∧ tag ∈ names := by
  cases v with
  | text s =>
    obtain ⟨hs, htag⟩ := Option.ite_none_right_eq_some.mp h
    cases htag
    exact ⟨rfl, hs⟩
  | number n => cases n <;> cases h
  | _ => cases h

/-- The tag of an object is the one value under its key. -/
theorem tag_of_variant? {key : String} {names : List String} {v : Json} {tag : String} {rest : Json}
    (h : variant? .plain key names v = some (tag, rest)) :
    tag ∈ names ∧ ∀ fields, v = .object fields → values key fields = [.text tag] := by
  cases v with
  | object fields =>
    unfold variant? at h
    dsimp only at h
    split at h
    · rename_i u hu
      obtain ⟨t, ht, hrest⟩ := Option.map_eq_some_iff.mp h
      cases hrest
      obtain ⟨rfl, hmem⟩ := tag?_plain ht
      refine ⟨hmem, ?_⟩
      rintro _ ⟨⟩
      exact hu
    · cases h
  | array items =>
    cases items with
    | nil => cases h
    | cons u items =>
      obtain ⟨t, ht, hrest⟩ := Option.map_eq_some_iff.mp h
      cases hrest
      exact ⟨(tag?_plain ht).2, nofun⟩
  | _ => cases h

theorem ReadsLast.required {read : Json → Option α} (h : ReadsLast read) {o : Option Json} {a : α}
    (hread : required read o = some a) : required read (o.map lastWins) = some a := by
  obtain ⟨v, rfl, hv⟩ := Option.bind_eq_some_iff.mp hread
  exact h v a hv

theorem ReadsLast.nullable {read : Json → Option α} (h : ReadsLast read) {o : Option Json}
    {a : Option α} (hread : nullable read o = some a) : nullable read (o.map lastWins) = some a := by
  cases o with
  | none => exact hread
  | some v =>
    cases v with
    | null => exact hread
    | _ =>
      obtain ⟨b, hb, rfl⟩ := Option.map_eq_some_iff.mp hread
      exact Option.map_eq_some_iff.mpr ⟨b, h _ b hb, rfl⟩

theorem ReadsLast.defaulted {default : α} {read : Json → Option α} (h : ReadsLast read)
    {o : Option Json} {a : α} (hread : defaulted default read o = some a) :
    defaulted default read (o.map lastWins) = some a := by
  cases o with
  | none => exact hread
  | some v => exact h v a hread

theorem readsLast_name? (setting : Setting) : ReadsLast (name? setting) := by
  intro v a h
  unfold name? at h
  split at h
  · exact h
  · exact h
  · exact h
  · cases h

theorem ReadsLast.map {read : Json → Option α} (h : ReadsLast read) (f : α → β) :
    ReadsLast fun v => (read v).map f := by
  intro v b hread
  obtain ⟨a, ha, rfl⟩ := Option.map_eq_some_iff.mp hread
  exact Option.map_eq_some_iff.mpr ⟨a, h v a ha, rfl⟩

end StoryPreview.Json
