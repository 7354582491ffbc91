import StoryPreview.Proofs.Script.Expansion
/-!
Where the commands of a script come from. Each is narration or was read from the brackets of one line
(`read_of_parse`), and what stands in an expansion stands in the script itself or in one that was loaded
(`mem_itemsFrom`). So what holds of every command that can be read holds of every command that a compile
links (`read_of_expand`), in particular that a branch has a choice (`Read.offers`).
-/
namespace StoryPreview

/-- A branch has a choice. -/
def Node.Offers (node : Node) : Prop := ∀ choices, node = .branch choices → choices ≠ []

namespace Script

/-! ## Reading -/

theorem choices?_ne_nil {args : Arguments} {choices : List Choice}
    (h : choices? args = .ok choices) : choices ≠ [] := by
  unfold choices? at h
  dsimp only at h
  split at h
  · cases h
  · rename_i hne
    split at h
    · cases h
    · cases h
      exact hne

theorem bind_ok {ε α β : Type} {x : Except ε α} {f : α → Except ε β} {b : β} :
    (x >>= f) = .ok b ↔ ∃ a, x = .ok a ∧ f a = .ok b := by
  cases x with
  | error e => exact ⟨nofun, nofun⟩
  | ok a => exact ⟨fun h => ⟨a, rfl, h⟩, fun ⟨_, ha, h⟩ => by cases ha; exact h⟩

theorem pure_ok {ε α : Type} {a b : α} : (pure a : Except ε α) = .ok b ↔ a = b :=
  Except.ok.injEq a b ▸ Iff.rfl

/-- Only a `BRANCH` gives a branch. -/
theorem choices?_of_readCommand {command : String} {args : Arguments} {trailing : List Char}
    {choices : List Choice}
    (h : readCommand command args trailing = .ok (.node (.branch choices))) :
    choices? args = .ok choices := by
  unfold readCommand at h
  dsimp only at h
  split at h
  case h_1 => split at h <;> cases h
  case h_7 =>
    obtain ⟨choices', hchoices, h⟩ := bind_ok.mp h
    cases h
    exact hchoices
  case h_16 => cases h
  all_goals
    simp only [bind_ok, pure_ok, Reading.node.injEq, reduceCtorEq, and_false, exists_false] at h

theorem offers_of_readBrackets {content trailing : List Char} {node : Node}
    (h : readBrackets content trailing = .ok (.node node)) : node.Offers := by
  rintro choices rfl
  unfold readBrackets at h
  split at h
  · cases h
  · exact choices?_ne_nil (choices?_of_readCommand h)

/-- A command that can be read: narration or dialogue, or what the brackets of one line say. -/
inductive Read : Node → Prop
  | say (speaker : Option String) (text : String) : Read (.say speaker text)
  | brackets {content trailing : List Char} {node : Node}
      (h : readBrackets content trailing = .ok (.node node)) : Read node

theorem Read.offers {node : Node} (h : Read node) : node.Offers := by
  cases h with
  | say speaker text => exact nofun
  | brackets h => exact offers_of_readBrackets h

theorem read_of_items {waiting : Option OpenSpeech} {n : Nat} {ls : List Line} {node : Node}
    (h : .ok node ∈ items waiting n ls) : Read node := by
  have hfault (waiting : Option OpenSpeech) :
      .ok node ∉ waiting.toList.map OpenSpeech.fault := by
    cases waiting <;> simp [OpenSpeech.fault]
  induction ls generalizing waiting n with
  | nil => exact absurd h (hfault waiting)
  | cons l ls ih =>
    cases l with
    | skipped => exact ih h
    | narration text =>
      rcases List.mem_cons.mp h with heq | h
      · cases heq
        exact .say _ _
      · exact ih h
    | unterminated =>
      rcases List.mem_append.mp h with h | h
      · exact absurd h (hfault waiting)
      · exact ih ((List.mem_cons.mp h).resolve_left nofun)
    | command content trailing =>
      rcases List.mem_append.mp h with h | h
      · exact absurd h (hfault waiting)
      · split at h
        · rename_i hread
          rcases List.mem_cons.mp h with heq | h
          · cases heq
            exact .brackets hread
          · exact ih h
        · exact ih h
        · exact ih ((List.mem_cons.mp h).resolve_left nofun)

theorem read_of_parse {source : String} {nodes : List Node} (h : parse source = .ok nodes)
    {node : Node} (hnode : node ∈ nodes) : Read node := by
  have hitems := gather_ok.mp h
  have hmem : .ok node ∈ items none 1 ((Text.lines source.toList).map Line.ofText) := by
    rw [hitems]
    exact List.mem_map_of_mem hnode
  exact read_of_items hmem

end Script

/-! ## Expanding -/

namespace Includes

/-- Every script of the table is what reading some text gives. -/
def FromTexts (inc : Includes) : Prop :=
  ∀ name script, inc.load name = .ok script → ∃ text, script = Script.parse text

theorem fromTexts_of_entries {inc : Includes}
    (h : ∀ name script, (name, .ok script) ∈ inc.entries → ∃ text, script = Script.parse text) :
    inc.FromTexts := by
  intro name script hload
  unfold load at hload
  split at hload
  · rename_i outcome hlookup
    obtain ⟨l, r, hentries, _⟩ := List.lookup_eq_some_iff.mp hlookup
    refine h name script ?_
    rw [hentries, ← hload]
    exact List.mem_append_right _ List.mem_cons_self
  · cases hload

theorem fromTexts_ofTexts (texts : List (String × String)) : (ofTexts texts).FromTexts := by
  refine fromTexts_of_entries fun name script h => ?_
  obtain ⟨t, _, ht⟩ := List.mem_map.mp h
  cases ht
  exact ⟨t.2, rfl⟩

theorem fromTexts_directory (d : Directory) (root source : String) :
    (d.includes root source).FromTexts := by
  refine fromTexts_of_entries fun name script h => ?_
  obtain ⟨other, _, hentry⟩ := List.mem_map.mp h
  have hscript := congrArg Prod.snd hentry
  dsimp only at hscript
  split at hscript
  · rename_i text _
    cases hscript
    exact ⟨text, rfl⟩
  · cases hscript

theorem mem_itemsFrom {inc : Includes} {opened : List String} {nodes : List Node} {node : Node}
    (h : .ok node ∈ inc.itemsFrom opened nodes) :
    node ∈ nodes ∨ ∃ name inner, inc.load name = .ok (.ok inner) ∧ node ∈ inner := by
  induction hn : inc.unopened opened using Nat.strongRecOn generalizing opened nodes with
  | ind n ih =>
    rw [itemsFrom_eq] at h
    obtain ⟨command, hcommand, hitem⟩ := List.mem_flatMap.mp h
    cases command with
    | inclusion name =>
      unfold visit at hitem
      dsimp only at hitem
      split at hitem
      · cases List.mem_singleton.mp hitem
      · rename_i hname
        split at hitem
        · cases List.mem_singleton.mp hitem
        · simp at hitem
        · rename_i inner hload
          rcases ih _ (hn ▸ unopened_lt hload hname) hitem rfl with hinner | hdeeper
          · exact .inr ⟨name, inner, hload, hinner⟩
          · exact .inr hdeeper
    | _ =>
      cases List.mem_singleton.mp hitem
      exact .inl hcommand

/-- Every command that a script of texts expands to can be read. -/
theorem read_of_expand {inc : Includes} (hinc : inc.FromTexts) {source : String}
    {nodes expanded : List Node} (hparse : Script.parse source = .ok nodes)
    (h : inc.expand nodes = .ok expanded) {node : Node} (hnode : node ∈ expanded) :
    Script.Read node := by
  have hitems := Script.gather_ok.mp h
  rw [items_eq_itemsFrom] at hitems
  have hmem : .ok node ∈ inc.itemsFrom [] nodes := hitems ▸ List.mem_map_of_mem hnode
  rcases mem_itemsFrom hmem with hmem | ⟨name, inner, hload, hmem⟩
  · exact Script.read_of_parse hparse hmem
  · obtain ⟨text, htext⟩ := hinc name _ hload
    exact Script.read_of_parse htext.symm hmem

end Includes

end StoryPreview
