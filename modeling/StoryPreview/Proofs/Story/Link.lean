import StoryPreview.Proofs.Script.Append
import StoryPreview.Story.Basic
/-!
Linked stories. `linked_of_link` says what a story that was linked without an error is: its commands,
a table that maps each label to its one place, and no target without a label. From that, and from what
appending does to a script, a story compiled from a longer script extends the one compiled from its
beginning (`extends_of_compile`).
-/
namespace StoryPreview

namespace Link

theorem labelsFrom_append (n : Nat) (a b : List Node) :
    labelsFrom n (a ++ b) = labelsFrom n a ++ labelsFrom (n + a.length) b := by
  induction a generalizing n with
  | nil => rfl
  | cons node a ih =>
    have hlen : n + (node :: a).length = n + 1 + a.length := by
      rw [List.length_cons]
      omega
    rw [hlen, List.cons_append]
    cases node with
    | label name => rw [labelsFrom, labelsFrom, ih, List.cons_append]
    | _ => exact ih (n + 1)

/-- Without an error for it no label stands twice. -/
theorem nodup_of_duplicates {seen : List String} {found : List (String × Nat)}
    (h : duplicates seen found = []) :
    (found.map Prod.fst).Nodup ∧ ∀ name ∈ seen, name ∉ found.map Prod.fst := by
  induction found generalizing seen with
  | nil => simp
  | cons label rest ih =>
    obtain ⟨name, i⟩ := label
    rw [duplicates] at h
    split at h
    · cases h
    · rename_i hname
      obtain ⟨hnodup, hseen⟩ := ih h
      refine ⟨List.nodup_cons.mpr ⟨hseen name List.mem_cons_self, hnodup⟩, ?_⟩
      intro other hother hmem
      rcases List.mem_cons.mp hmem with rfl | hmem
      · exact hname hother
      · exact hseen other (List.mem_cons_of_mem _ hother) hmem

theorem mem_referenced {nodes : List Node} {name : String} :
    name ∈ referenced nodes ↔ ∃ node ∈ nodes, name ∈ node.targets := by
  unfold referenced
  rw [Std.TreeSet.mem_toList, Std.TreeSet.mem_ofList]
  simp

end Link

namespace Story

/-- The story that commands link to. -/
structure Linked (nodes : List Node) (s : Story) : Prop where
  nodes_eq : s.nodes = nodes.toArray
  /-- The table has each label at its place. -/
  label : ∀ {name i}, (name, i) ∈ Link.labelsFrom 0 nodes → s.labelIndex? name = some i
  /-- Every target is a label. -/
  target : ∀ node ∈ nodes, ∀ name ∈ node.targets, ∃ i, (name, i) ∈ Link.labelsFrom 0 nodes

theorem linked_of_link {nodes : List Node} {s : Story} (h : Story.link nodes = .ok s) :
    Linked nodes s := by
  unfold Story.link at h
  dsimp only at h
  split at h
  · rename_i hempty
    obtain ⟨hdup, hundef⟩ := List.append_eq_nil_iff.mp hempty
    cases h
    have hnodup := (Link.nodup_of_duplicates hdup).1
    refine ⟨rfl, ?_, ?_⟩
    · intro name i hmem
      refine Std.TreeMap.getElem?_ofList_of_mem Std.ReflCmp.compare_self ?_ hmem
      refine (List.pairwise_map.mp hnodup).imp ?_
      intro a b hne heq
      exact hne (Std.LawfulEqCmp.eq_of_compare heq)
    · intro node hnode name hname
      have hknown := List.filter_eq_nil_iff.mp (List.map_eq_nil_iff.mp hundef) name
        (Link.mem_referenced.mpr ⟨node, hnode, hname⟩)
      rw [Std.TreeMap.contains_ofList] at hknown
      simpa using hknown
  · cases h

/-- A story that goes on where another one ends: it has its commands in their places, and they lead to
the same places. -/
structure Extends (old new : Story) : Prop where
  node? : ∀ {i node}, old.node? i = some node → new.node? i = some node
  target : ∀ {i node}, old.node? i = some node → ∀ name ∈ node.targets,
    new.labelIndex? name = old.labelIndex? name

theorem extends_of_link {a b : List Node} {old new : Story} (hold : Story.link a = .ok old)
    (hnew : Story.link (a ++ b) = .ok new) : Extends old new := by
  have ho := linked_of_link hold
  have hn := linked_of_link hnew
  have hnode {i : Nat} {node : Node} (h : old.node? i = some node) : a[i]? = some node := by
    rw [← h, Story.node?, ho.nodes_eq, List.getElem?_toArray]
  refine ⟨?_, ?_⟩
  · intro i node h
    obtain ⟨hi, _⟩ := List.getElem?_eq_some_iff.mp (hnode h)
    rw [Story.node?, hn.nodes_eq, List.getElem?_toArray, List.getElem?_append_left hi, hnode h]
  · intro i node h name hname
    obtain ⟨j, hj⟩ := ho.target node (List.mem_of_getElem? (hnode h)) name hname
    rw [ho.label hj]
    refine hn.label ?_
    rw [Link.labelsFrom_append]
    exact List.mem_append_left _ hj

theorem compile_ok {inc : Includes} {source : String} {s : Story}
    (h : Story.compile inc source = .ok s) :
    ∃ nodes expanded, Script.parse source = .ok nodes ∧ inc.expand nodes = .ok expanded ∧
      Story.link expanded = .ok s := by
  unfold Story.compile at h
  split at h
  · cases h
  · rename_i nodes hparse
    split at h
    · cases h
    · rename_i expanded hexpand
      exact ⟨nodes, expanded, hparse, hexpand, h⟩

/-- A script that is empty or ends with a line feed, and compiles, compiles to the beginning of what it
compiles to when text is appended. -/
theorem extends_of_compile {inc : Includes} {a b : String} {old new : Story}
    (ha : Text.EndsLine a.toList) (hold : Story.compile inc a = .ok old)
    (hnew : Story.compile inc (a ++ b) = .ok new) : Extends old new := by
  obtain ⟨na, ea, hpa, hea, hla⟩ := compile_ok hold
  obtain ⟨nodes, expanded, hp, he, hl⟩ := compile_ok hnew
  rw [Script.parse_append ha hpa, Script.gather_append_ok] at hp
  obtain ⟨na', nb, hna', _, rfl⟩ := hp
  rw [Script.gather_map_ok] at hna'
  cases hna'
  obtain ⟨ea', eb, hea', _, rfl⟩ := Includes.expand_append_ok.mp he
  rw [hea] at hea'
  cases hea'
  exact extends_of_link hla hl

end Story

end StoryPreview
