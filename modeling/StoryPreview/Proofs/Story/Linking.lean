import Mathlib.Data.List.Basic
import Mathlib.Tactic.SplitIfs
import StoryPreview.Proofs.Story.Course
/-!
Linking is exact. Commands link if and only if no label stands twice and every label that is used stands
somewhere. The table has then each label at its place and nothing else; otherwise the errors name every
label that repeats an earlier one and every label that is used and stands nowhere (`link_exact`). The
latter come in the order of their bytes, which is the order of their characters
(`bytes_lt_bytes_of_lt`).
-/
namespace StoryPreview

/-! ## Byte order -/

namespace Text

/-- The bytes of a text in UTF-8. -/
def bytes (s : String) : List UInt8 := s.toUTF8.data.toList

theorem bytes_eq (s : String) : bytes s = s.toList.flatMap String.utf8EncodeChar := by
  unfold bytes
  rw [String.toUTF8_eq_toByteArray, ← String.utf8Encode_toList, List.utf8Encode,
    List.data_toByteArray]

/-- Bytes that come before others whatever stands behind them. -/
def Ahead (xs ys : List UInt8) : Prop := ∀ r r', xs ++ r < ys ++ r'

theorem ahead_cons {m n : Nat} {xs ys : List UInt8} (hn : n < 256) (hle : m ≤ n)
    (hrest : m = n → Ahead xs ys) : Ahead (UInt8.ofNat m :: xs) (UInt8.ofNat n :: ys) := by
  intro r r'
  rw [List.cons_append, List.cons_append, List.cons_lt_cons_iff, UInt8.lt_iff_toNat_lt,
    UInt8.toNat_ofNat_of_lt' hn, UInt8.toNat_ofNat_of_lt' (Nat.lt_of_le_of_lt hle hn)]
  rcases Nat.lt_or_eq_of_le hle with hlt | rfl
  · exact .inl hlt
  · exact .inr ⟨rfl, hrest rfl r r'⟩

theorem ahead_of_lt {m n : Nat} {xs ys : List UInt8} (hn : n < 256) (hlt : m < n) :
    Ahead (UInt8.ofNat m :: xs) (UInt8.ofNat n :: ys) :=
  ahead_cons hn (Nat.le_of_lt hlt) fun h => absurd h (Nat.ne_of_lt hlt)

theorem toNat_val_lt (c : Char) : c.val.toNat < 0x110000 := by
  rcases c.valid with h | h
  · exact Nat.lt_trans h (by decide)
  · exact h.2

theorem ahead_utf8EncodeChar {c d : Char} (h : c < d) :
    Ahead (String.utf8EncodeChar c) (String.utf8EncodeChar d) := by
  have hlt : c.val.toNat < d.val.toNat := h
  have hd := toNat_val_lt d
  unfold String.utf8EncodeChar
  generalize c.val.toNat = v at *
  generalize d.val.toNat = w at *
  have hv := Nat.div_div_eq_div_mul v 64 64
  have hw := Nat.div_div_eq_div_mul w 64 64
  have hv' := Nat.div_div_eq_div_mul v 4096 64
  have hw' := Nat.div_div_eq_div_mul w 4096 64
  dsimp only
  split_ifs
  -- A character with more bytes has a greater first byte. Among those with as many the bytes are the
  -- digits to base 64, and the last one decides if no other does.
  all_goals first
    | exact ahead_of_lt (by omega) (by omega)
    | exact ahead_cons (by omega) (by omega) fun _ => ahead_of_lt (by omega) (by omega)
    | exact ahead_cons (by omega) (by omega) fun _ => ahead_cons (by omega) (by omega) fun _ =>
        ahead_of_lt (by omega) (by omega)
    | exact ahead_cons (by omega) (by omega) fun _ => ahead_cons (by omega) (by omega) fun _ =>
        ahead_cons (by omega) (by omega) fun _ => ahead_of_lt (by omega) (by omega)

/-- Texts in the order of their characters are in the order of their bytes. -/
theorem bytes_lt_bytes_of_lt {s t : String} (h : s < t) : bytes s < bytes t := by
  have hlex : List.Lex (· < ·) s.toList t.toList := h
  rw [bytes_eq, bytes_eq]
  generalize s.toList = cs, t.toList = ds at hlex
  induction hlex with
  | nil =>
    rw [List.flatMap_nil, List.flatMap_cons]
    cases hbytes : String.utf8EncodeChar _ with
    | nil => exact absurd hbytes String.utf8EncodeChar_ne_nil
    | cons b bs => exact .nil
  | cons _ ih =>
    rw [List.flatMap_cons, List.flatMap_cons]
    exact List.append_left_lt ih
  | rel hlt =>
    rw [List.flatMap_cons, List.flatMap_cons]
    exact ahead_utf8EncodeChar hlt _ _

end Text

/-! ## Labels -/

/-- The labels that a command uses: those that it may send the story to. -/
inductive Node.Uses : Node → String → Prop
  | jump (label : String) : Uses (.jump label) label
  | jumpIf (var : String) (cmp : Comparison) (value label : String) :
      Uses (.jumpIf var cmp value label) label
  | branch {choices : List Choice} {choice : Choice} (h : choice ∈ choices) :
      Uses (.branch choices) choice.target

theorem Node.mem_targets {node : Node} {label : String} :
    label ∈ node.targets ↔ node.Uses label := by
  constructor
  · intro h
    cases node with
    | jump target =>
      cases List.mem_singleton.mp h
      exact .jump label
    | jumpIf var cmp value target =>
      cases List.mem_singleton.mp h
      exact .jumpIf var cmp value label
    | branch choices =>
      obtain ⟨choice, hchoice, rfl⟩ := List.mem_map.mp h
      exact .branch hchoice
    | _ => cases h
  · intro h
    cases h with
    | jump => exact List.mem_singleton_self label
    | jumpIf => exact List.mem_singleton_self label
    | branch h => exact List.mem_map_of_mem h

namespace Link

/-- The label that repeats an earlier one at an index, if one does. -/
def repeated? (nodes : List Node) (i : Nat) : Option String :=
  match nodes[i]? with
  | some (.label name) => if .label name ∈ nodes.take i then some name else none
  | _ => none

/-- The labels that repeat earlier ones, in the order of the commands. -/
def repeated (nodes : List Node) : List String :=
  (List.range nodes.length).filterMap (repeated? nodes)

theorem repeated?_eq_some_iff {nodes : List Node} {i : Nat} {name : String} :
    repeated? nodes i = some name ↔
      nodes[i]? = some (.label name) ∧ .label name ∈ nodes.take i := by
  unfold repeated?
  split
  · rename_i other hnode
    rw [hnode]
    split
    · rename_i hmem
      exact ⟨fun h => by cases h; exact ⟨rfl, hmem⟩, fun h => by cases h.1; rfl⟩
    · rename_i hmem
      exact ⟨nofun, fun h => by cases h.1; exact absurd h.2 hmem⟩
  · rename_i hno
    exact ⟨nofun, fun h => absurd h.1 (hno name)⟩

/-- The labels are found at their places, and at no other. -/
theorem mem_labelsFrom {n i : Nat} {nodes : List Node} {name : String} :
    (name, i) ∈ labelsFrom n nodes ↔ n ≤ i ∧ nodes[i - n]? = some (.label name) := by
  refine ⟨getElem?_of_mem_labelsFrom, ?_⟩
  rintro ⟨hle, hget⟩
  induction nodes generalizing n with
  | nil => cases hget
  | cons node nodes ih =>
    rcases Nat.eq_or_lt_of_le hle with rfl | hlt
    · rw [Nat.sub_self, List.getElem?_cons_zero] at hget
      cases hget
      exact List.mem_cons_self
    · have hsub : i - n = i - (n + 1) + 1 := by omega
      rw [hsub, List.getElem?_cons_succ] at hget
      have hmem := ih hlt hget
      cases node with
      | label other => exact List.mem_cons_of_mem _ hmem
      | _ => exact hmem

theorem exists_mem_labelsFrom {nodes : List Node} {name : String} :
    (∃ i, (name, i) ∈ labelsFrom 0 nodes) ↔ .label name ∈ nodes := by
  rw [List.mem_iff_getElem?]
  exact exists_congr fun i => mem_labelsFrom.trans (and_iff_right (Nat.zero_le i))

/-- Behind the commands that have come before, the linker reports the labels that repeat earlier ones. -/
theorem duplicates_eq (before nodes : List Node) {seen : List String}
    (hseen : ∀ name, name ∈ seen ↔ Node.label name ∈ before) :
    duplicates seen (labelsFrom before.length nodes) =
      ((List.range' before.length nodes.length).filterMap (repeated? (before ++ nodes))).map
        .duplicateLabel := by
  induction nodes generalizing before seen with
  | nil => rfl
  | cons node nodes ih =>
    have hhere : (before ++ node :: nodes)[before.length]? = some node := by
      rw [List.getElem?_append_right (Nat.le_refl _), Nat.sub_self, List.getElem?_cons_zero]
    have htake : (before ++ node :: nodes).take before.length = before := List.take_left
    have hrest {seen : List String} (hseen : ∀ name, name ∈ seen ↔ Node.label name ∈ before ++ [node]) :
        duplicates seen (labelsFrom (before.length + 1) nodes) =
          ((List.range' (before.length + 1) nodes.length).filterMap
            (repeated? (before ++ node :: nodes))).map .duplicateLabel := by
      have h := ih (before ++ [node]) hseen
      rwa [List.length_append, List.length_singleton, List.append_assoc, List.singleton_append] at h
    rw [List.length_cons, List.range'_succ, List.filterMap_cons, repeated?, hhere, htake]
    cases node with
    | label name =>
      dsimp only
      rw [labelsFrom, duplicates]
      by_cases hname : name ∈ seen
      · rw [if_pos hname, if_pos ((hseen name).mp hname), List.map_cons]
        refine congrArg _ (hrest fun other => ?_)
        rw [hseen, List.mem_append, List.mem_singleton, Node.label.injEq]
        exact ⟨.inl, fun h => h.elim id fun heq => heq ▸ (hseen name).mp hname⟩
      · rw [if_neg hname, if_neg (mt (hseen name).mpr hname)]
        refine hrest fun other => ?_
        rw [List.mem_cons, hseen, List.mem_append, List.mem_singleton, Node.label.injEq]
        exact or_comm
    | _ =>
      refine hrest fun other => ?_
      rw [hseen, List.mem_append, List.mem_singleton]
      exact ⟨.inl, fun h => h.resolve_right fun heq => by cases heq⟩

theorem duplicates_nil (nodes : List Node) :
    duplicates [] (labelsFrom 0 nodes) = (repeated nodes).map .duplicateLabel := by
  have h : duplicates [] (labelsFrom 0 nodes) = _ :=
    duplicates_eq [] nodes fun name => by simp
  rwa [List.length_nil, List.nil_append, ← List.range_eq_range'] at h

/-- No label repeats an earlier one if and only if none stands twice. -/
theorem repeated_eq_nil_iff {nodes : List Node} :
    repeated nodes = [] ↔ ∀ (i j : Nat) name, nodes[i]? = some (.label name) →
      nodes[j]? = some (.label name) → i = j := by
  have hno : repeated nodes = [] ↔
      ∀ (i : Nat) name, nodes[i]? = some (.label name) → .label name ∉ nodes.take i := by
    unfold repeated
    rw [List.filterMap_eq_nil_iff]
    constructor
    · intro h i name hget hmem
      obtain ⟨hi, _⟩ := List.getElem?_eq_some_iff.mp hget
      have hnone := h i (List.mem_range.mpr hi)
      rw [repeated?_eq_some_iff.mpr ⟨hget, hmem⟩] at hnone
      cases hnone
    · intro h i _
      rw [Option.eq_none_iff_forall_ne_some]
      intro name heq
      obtain ⟨hget, hmem⟩ := repeated?_eq_some_iff.mp heq
      exact h i name hget hmem
  have htake {i : Nat} {name : String} : Node.label name ∈ nodes.take i ↔
      ∃ j : Nat, j < i ∧ nodes[j]? = some (.label name) := by
    rw [List.mem_iff_getElem?]
    refine exists_congr fun j => ?_
    rw [List.getElem?_take]
    by_cases hj : j < i
    · rw [if_pos hj]
      exact (and_iff_right hj).symm
    · rw [if_neg hj]
      exact ⟨nofun, fun h => absurd h.1 hj⟩
  rw [hno]
  constructor
  · intro h i j name hi hj
    rcases Nat.lt_trichotomy i j with hlt | heq | hlt
    · exact absurd (htake.mpr ⟨i, hlt, hi⟩) (h j name hj)
    · exact heq
    · exact absurd (htake.mpr ⟨j, hlt, hj⟩) (h i name hi)
  · intro h i name hi hmem
    obtain ⟨j, hlt, hj⟩ := htake.mp hmem
    exact absurd (h j i name hj hi) (Nat.ne_of_lt hlt)

/-- The labels that are used and stand nowhere, each once. -/
def undefined (nodes : List Node) : List String :=
  (referenced nodes).filter fun name => .label name ∉ nodes

theorem mem_undefined {nodes : List Node} {name : String} :
    name ∈ undefined nodes ↔ (∃ node ∈ nodes, node.Uses name) ∧ .label name ∉ nodes := by
  unfold undefined
  rw [List.mem_filter, mem_referenced, decide_eq_true_iff]
  simp only [Node.mem_targets]

/-- They come in the order of their bytes. -/
theorem pairwise_undefined (nodes : List Node) :
    (undefined nodes).Pairwise fun a b => Text.bytes a < Text.bytes b := by
  refine List.Pairwise.filter _ (Std.TreeSet.ordered_toList.imp fun {a b} h => ?_)
  exact Text.bytes_lt_bytes_of_lt (compareOfLessAndEq_eq_lt.mp h)

theorem undefined_eq_nil_iff {nodes : List Node} :
    undefined nodes = [] ↔ ∀ node ∈ nodes, ∀ name, node.Uses name → .label name ∈ nodes := by
  rw [List.eq_nil_iff_forall_not_mem]
  constructor
  · intro h node hnode name huses
    by_contra hlabel
    exact h name (mem_undefined.mpr ⟨⟨node, hnode, huses⟩, hlabel⟩)
  · intro h name hmem
    obtain ⟨⟨node, hnode, huses⟩, hlabel⟩ := mem_undefined.mp hmem
    exact hlabel (h node hnode name huses)

end Link

namespace Story

/-- What linking gives. -/
theorem link_eq (nodes : List Node) :
    Story.link nodes =
      if Link.repeated nodes = [] ∧ Link.undefined nodes = [] then
        .ok ⟨nodes.toArray, .ofList (Link.labelsFrom 0 nodes)⟩
      else .error ((Link.repeated nodes).map .duplicateLabel ++
        (Link.undefined nodes).map .undefinedLabel) := by
  have hundefined : (Link.referenced nodes).filter
      (fun name => !(Std.TreeMap.ofList (Link.labelsFrom 0 nodes)).contains name) =
        Link.undefined nodes := by
    refine List.filter_congr fun name _ => ?_
    rw [Bool.eq_iff_iff, Bool.not_eq_true', decide_eq_true_iff, ← Link.exists_mem_labelsFrom,
      Std.TreeMap.contains_ofList]
    simp
  unfold Story.link
  dsimp only
  rw [hundefined, Link.duplicates_nil]
  simp only [List.append_eq_nil_iff, List.map_eq_nil_iff]

/-- What the table of a linked story has is a label. -/
theorem exists_label_of_labelIndex? {nodes : List Node} {s : Story} (h : Story.link nodes = .ok s)
    {name : String} {i : Nat} (hi : s.labelIndex? name = some i) :
    ∃ j, (name, j) ∈ Link.labelsFrom 0 nodes := by
  rw [link_eq] at h
  split at h
  · cases h
    by_contra hno
    have hnone : (Std.TreeMap.ofList (Link.labelsFrom 0 nodes))[name]? = none := by
      refine Std.TreeMap.getElem?_ofList_of_contains_eq_false ?_
      simpa using hno
    rw [labelIndex?, hnone] at hi
    cases hi
  · cases h

/-- Commands link if and only if no label stands twice and every label that is used stands somewhere. The
story has then the commands as they are, and a table of exactly the labels, each with its index.
Otherwise the errors are, first, one for each command that is a label and repeats an earlier one, in the
order of the commands, and then one for each label that is used and stands nowhere, in the order of their
bytes. -/
theorem link_exact (nodes : List Node) :
    ((∃ s, Story.link nodes = .ok s) ↔
      (∀ (i j : Nat) name, nodes[i]? = some (.label name) → nodes[j]? = some (.label name) → i = j) ∧
        ∀ node ∈ nodes, ∀ name, node.Uses name → .label name ∈ nodes) ∧
      (∀ s, Story.link nodes = .ok s → s.nodes.toList = nodes ∧
        ∀ name (i : Nat), s.labelIndex? name = some i ↔ nodes[i]? = some (.label name)) ∧
      ∀ errors, Story.link nodes = .error errors → ∃ missing : List String,
        errors = (Link.repeated nodes).map .duplicateLabel ++ missing.map .undefinedLabel ∧
          missing.Pairwise (fun a b => Text.bytes a < Text.bytes b) ∧
          ∀ name, name ∈ missing ↔ (∃ node ∈ nodes, node.Uses name) ∧ .label name ∉ nodes := by
  refine ⟨?_, fun s hs => ?_, fun errors herrors => ?_⟩
  · rw [← Link.repeated_eq_nil_iff, ← Link.undefined_eq_nil_iff, link_eq]
    split
    · rename_i h
      exact ⟨fun _ => h, fun _ => ⟨_, rfl⟩⟩
    · rename_i h
      exact ⟨nofun, fun h' => absurd h' h⟩
  · have hlinked := linked_of_link hs
    refine ⟨by rw [hlinked.nodes_eq], fun name i => ⟨fun hi => ?_, fun hi => ?_⟩⟩
    · obtain ⟨j, hj⟩ := exists_label_of_labelIndex? hs hi
      rw [hlinked.label hj] at hi
      cases hi
      exact (Link.mem_labelsFrom.mp hj).2
    · exact hlinked.label (Link.mem_labelsFrom.mpr ⟨Nat.zero_le i, hi⟩)
  · rw [link_eq] at herrors
    split at herrors
    · cases herrors
    · cases herrors
      exact ⟨Link.undefined nodes, rfl, Link.pairwise_undefined nodes, fun name =>
        Link.mem_undefined⟩

example : Story.link [.label "inn", .branch [⟨"On", "road"⟩, ⟨"In", "inn"⟩], .label "inn",
      .jump "road", .jump "mill", .label "inn"] =
    .error [.duplicateLabel "inn", .duplicateLabel "inn", .undefinedLabel "mill",
      .undefinedLabel "road"] := by rfl

end Story

end StoryPreview
