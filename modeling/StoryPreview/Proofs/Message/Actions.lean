import StoryPreview.Proofs.Json.LastValues
import StoryPreview.Proofs.Message.RoundTrip
/-!
The action of a message is read like an action by itself. A message is read in two steps: its action is
first any value, of whose repeated keys the last counts, and then the kind that this value claims is looked
at before it is read. The first step loses nothing that can be read (`Action.readsLast_ofJson?`), and the
second refuses no object that can be read (`Inbound.claimedKind_mem_kinds`). Only the form of an action as an
array, which has a kind but no key for it, is read by itself and refused in a message
(`Inbound.decode_action`).
-/
namespace StoryPreview

open Json (Plain ReadsLast Setting)

/-! ## Reading an action again -/

namespace Json

theorem ReadsLast.onlyField? {read : Json → Option α} (h : ReadsLast read) (name : String) :
    ReadsLast (Json.onlyField? name read) := by
  intro v a hread
  unfold Json.onlyField? at hread ⊢
  obtain ⟨vs, hvs, hread⟩ := Option.bind_eq_some_iff.mp hread
  rw [record?_lastWins hvs]
  cases vs with
  | nil => cases hread
  | cons o vs =>
    cases vs with
    | nil => exact h.required hread
    | cons => cases hread

theorem readsLast_noFields? : ReadsLast noFields? := by
  intro v a h
  cases v with
  | array items => cases items <;> exact h
  | object fields => rfl
  | _ => cases h

end Json

theorem ErrorInfo.readsLast_ofJson? (setting : Setting) : ReadsLast (ofJson? setting) := by
  intro v e h
  unfold ofJson? at h ⊢
  obtain ⟨vs, hvs, h⟩ := Option.bind_eq_some_iff.mp h
  rw [Json.record?_lastWins hvs]
  have hkind : ReadsLast fun k => (k.name? setting).bind ErrorKind.ofName? := by
    intro k kind hk
    obtain ⟨name, hname, hk⟩ := Option.bind_eq_some_iff.mp hk
    exact Option.bind_eq_some_iff.mpr ⟨name, Json.readsLast_name? setting k name hname, hk⟩
  split at h
  · rename_i kind message line
    obtain ⟨k, hk, h⟩ := Option.bind_eq_some_iff.mp h
    obtain ⟨m, hm, h⟩ := Option.bind_eq_some_iff.mp h
    obtain ⟨l, hl, h⟩ := Option.bind_eq_some_iff.mp h
    simp only [List.map_cons, List.map_nil, Option.bind_eq_bind, Option.bind_some, hkind.required hk,
      Json.readsLast_asText?.required hm, Json.readsLast_asNat?.nullable hl]
    exact h
  · cases h

theorem FunctionEvent.readsLast_ofJson? : ReadsLast ofJson? := by
  intro v e h
  unfold ofJson? at h ⊢
  obtain ⟨vs, hvs, h⟩ := Option.bind_eq_some_iff.mp h
  rw [Json.record?_lastWins hvs]
  split at h
  · obtain ⟨n, hn, h⟩ := Option.bind_eq_some_iff.mp h
    obtain ⟨as, has, h⟩ := Option.bind_eq_some_iff.mp h
    simp only [List.map_cons, List.map_nil, Option.bind_eq_bind, Option.bind_some,
      Json.readsLast_asText?.required hn, Json.readsLast_asText?.list?.defaulted has]
    exact h
  · cases h

/-- An action that can be read is read the same if of every key only the last value is left. -/
theorem Action.readsLast_ofJson? : ReadsLast ofJson? := by
  intro v a h
  unfold ofJson? at h ⊢
  obtain ⟨⟨tag, rest⟩, hvariant, h⟩ := Option.bind_eq_some_iff.mp h
  have htag : tag ∈ kinds := (Json.tag_of_variant? hvariant).1
  rw [Json.variant?_lastWins hvariant]
  unfold kinds at htag
  simp only [List.mem_cons, List.not_mem_nil, or_false] at htag
  rcases htag with rfl | rfl | rfl | rfl | rfl | rfl
  · exact Json.readsLast_noFields?.map _ rest a h
  · exact (Json.readsLast_asNat?.onlyField? "index").map _ rest a h
  · exact Json.readsLast_noFields?.map _ rest a h
  · exact (Json.readsLast_asBool?.onlyField? "enabled").map _ rest a h
  · exact ((ErrorInfo.readsLast_ofJson? .inVariant).list?.onlyField? "errors").map _ rest a h
  · exact (FunctionEvent.readsLast_ofJson?.list?.onlyField? "events").map _ rest a h

/-! ## The action of a message -/

namespace Inbound

/-- The kind that an action claims is a kind there is, if the action can be read and is an object. -/
theorem claimedKind_mem_kinds {v : Json} {a : Action} (h : Action.ofJson? v = some a)
    (hv : v.asArray? = none) : claimedKind v ∈ Action.kinds := by
  unfold Action.ofJson? at h
  obtain ⟨⟨tag, rest⟩, hvariant, _⟩ := Option.bind_eq_some_iff.mp h
  obtain ⟨hmem, hvalues⟩ := Json.tag_of_variant? hvariant
  cases v with
  | object fields =>
    have hkind : claimedKind (.object fields) = tag := by
      rw [claimedKind, hvalues fields rfl]
    rwa [hkind]
  | array items => cases hv
  | _ => cases hvariant

/-- A message with an action reads its action, wherever its type stands. -/
theorem decode_of_fields {raw : String} {fields : List (String × Json)} {v : Json}
    (hraw : Json.parse? raw = some (.object fields))
    (hfields : fields.Perm [("type", .text "action"), ("action", v)]) :
    decode raw = actionOfJson v := by
  have htype : Json.values "type" fields = [.text "action"] :=
    List.perm_singleton.mp ((hfields.filter _).map _)
  have hrest : fields.filter (fun f => f.1 ≠ "type") = [("action", v)] :=
    List.perm_singleton.mp (hfields.filter _)
  have hvariant : Json.variant? .plain "type" ["ready", "action", "jumpTo"] (.object fields) =
      some ("action", .object [("action", v)]) := by
    rw [Json.variant?]
    simp only [htype, hrest]
    rfl
  unfold decode
  rw [hraw]
  dsimp only
  unfold ofJson
  rw [hvariant]
  simp only [Json.onlyField?_singleton]

theorem actionOfJson_array (items : List Json) :
    actionOfJson (.array items) = .error (.unknownAction "") := by
  have hkind : claimedKind (Json.array items).lastWins = "" := by
    rw [Json.lastWins]
    rfl
  unfold actionOfJson
  dsimp only
  rw [hkind]
  exact if_pos (by decide)

/-- The action of a message is read of an object, of which every key has its last value left. -/
theorem actionOfJson_eq_ok_iff {v : Json} {a : Action} :
    actionOfJson v = .ok (.action a) ↔ v.asArray? = none ∧ Action.ofJson? v.lastWins = some a := by
  constructor
  · intro h
    have hv : v.asArray? = none := by
      cases v with
      | array items =>
        rw [actionOfJson_array] at h
        cases h
      | _ => rfl
    refine ⟨hv, ?_⟩
    unfold actionOfJson at h
    dsimp only at h
    split at h
    · cases h
    · split at h
      · rename_i b hb
        cases h
        exact hb
      · cases h
  · rintro ⟨hv, h⟩
    have hkind := claimedKind_mem_kinds h (Json.asArray?_lastWins_eq_none_iff.mpr hv)
    unfold actionOfJson
    dsimp only
    rw [if_neg (not_not_intro hkind), h]

/-- Written as an object, the action of a message is read as it is read by itself: what can be read by
itself is read, and nothing else unless a key stands twice. No action that can be read is taken for an
unknown one. An array claims no kind, whatever could be read of it. -/
theorem decode_action {raw : String} {fields : List (String × Json)} {v : Json}
    (hraw : Json.parse? raw = some (.object fields))
    (hfields : fields.Perm [("type", .text "action"), ("action", v)]) :
    (v.asArray? = none →
        (v.KeysOnce → ∀ a, decode raw = .ok (.action a) ↔ Action.ofJson? v = some a) ∧
          (∀ a, Action.ofJson? v = some a → decode raw = .ok (.action a)) ∧
          ∀ kind, decode raw = .error (.unknownAction kind) → Action.ofJson? v = none) ∧
      (v.asArray? ≠ none → decode raw = .error (.unknownAction "")) := by
  rw [decode_of_fields hraw hfields]
  refine ⟨fun hv => ?_, fun hv => ?_⟩
  rotate_left
  · cases v with
    | array items => exact actionOfJson_array items
    | _ => exact absurd rfl hv
  have hread (a : Action) (h : Action.ofJson? v = some a) : actionOfJson v = .ok (.action a) :=
    actionOfJson_eq_ok_iff.mpr ⟨hv, Action.readsLast_ofJson? v a h⟩
  refine ⟨fun hkeys a => ⟨fun h => ?_, hread a⟩, hread, fun kind hkind => ?_⟩
  · rw [← hkeys.lastWins_eq]
    exact (actionOfJson_eq_ok_iff.mp h).2
  · rw [Option.eq_none_iff_forall_ne_some]
    intro a ha
    rw [hread a ha] at hkind
    cases hkind

/-! ## Examples -/

/-- An action by itself may be an array that starts with its kind, and in a message it may not. -/
theorem decode_listedStart :
    Action.ofJson? (.array [.text "start"]) = some .start ∧
      decode "\x7b\"type\":\"action\",\"action\":[\"start\"]\x7d" = .error (.unknownAction "") :=
  ⟨rfl, by decide +kernel⟩

/-- Two errors, the first of them as an array, with the kind of the action behind them. -/
def mixedErrors : Json :=
  .object [
    ("errors", .array [
      .array [.text "compile", .text "No such command", .nat 3],
      .object [("line", .null), ("message", .text "No such file"),
        ("kind", .object [("includeLoad", .null)])]]),
    ("since", .object []),
    ("kind", .text "recordErrors")]

theorem plain_mixedErrors : Plain 4 mixedErrors := by
  have hfirst : Plain 2 (.array [.text "compile", .text "No such command", .nat 3]) :=
    .array (by simp [Plain.text, Plain.nat 1 (k := 3) (by decide)])
  have hkind : Plain 1 (.object [("includeLoad", .null)]) := .object (by simp) (by simp [Plain.null])
  have hsecond : Plain 2 (.object [("line", .null), ("message", .text "No such file"),
      ("kind", .object [("includeLoad", .null)])]) :=
    .object (by simp) (by simp [Plain.null, Plain.text, hkind])
  have herrors : Plain 3 (.array [.array [.text "compile", .text "No such command", .nat 3],
      .object [("line", .null), ("message", .text "No such file"),
        ("kind", .object [("includeLoad", .null)])]]) :=
    .array (by simp [hfirst, hsecond])
  have hnothing : Plain 3 (.object []) := .object (by simp) (by simp)
  exact .object (by simp) (by simp [Plain.text, herrors, hnothing])

/-- A choice without its number. -/
def unnumbered : Json := .object [("kind", .text "selectChoice"), ("choice", .text "on")]

theorem plain_unnumbered : Plain 1 unnumbered := .object (by simp) (by simp [Plain.text])

/-- Either way the errors are read, and either way the choice is not. -/
theorem decode_action_mixedErrors :
    (Json.parse? (Json.object [("action", mixedErrors), ("type", .text "action")]).compact =
          some (.object [("action", mixedErrors), ("type", .text "action")]) ∧
        mixedErrors.KeysOnce ∧
        decode (Json.object [("action", mixedErrors), ("type", .text "action")]).compact =
          .ok (.action (.recordErrors
            [⟨.compile, "No such command", some 3⟩, ⟨.includeLoad, "No such file", none⟩]))) ∧
      Json.parse? (Json.object [("type", .text "action"), ("action", unnumbered)]).compact =
          some (.object [("type", .text "action"), ("action", unnumbered)]) ∧
        unnumbered.KeysOnce ∧ Action.ofJson? unnumbered = none ∧
        ∀ a, decode (Json.object [("type", .text "action"), ("action", unnumbered)]).compact ≠
          .ok (.action a) := by
  have herrors : Plain 5 (.object [("action", mixedErrors), ("type", .text "action")]) :=
    .object (by simp) (by simp [Plain.text, plain_mixedErrors])
  have hchoice : Plain 2 (.object [("type", .text "action"), ("action", unnumbered)]) :=
    .object (by simp) (by simp [Plain.text, plain_unnumbered])
  have hrawErrors := Json.parse?_compact herrors (by decide)
  have hrawChoice := Json.parse?_compact hchoice (by decide)
  have hkeysErrors := Json.keysOnce_of_plain plain_mixedErrors
  have hkeysChoice := Json.keysOnce_of_plain plain_unnumbered
  have hnone : Action.ofJson? unnumbered = none := by rfl
  refine ⟨⟨hrawErrors, hkeysErrors, ?_⟩, hrawChoice, hkeysChoice, hnone, fun a ha => ?_⟩
  · exact (((decode_action hrawErrors (.swap _ _ _)).1 rfl).1 hkeysErrors _).mpr rfl
  · have hread := (((decode_action hrawChoice (.refl _)).1 rfl).1 hkeysChoice a).mp ha
    rw [hnone] at hread
    cases hread

end Inbound

end StoryPreview
