import Mathlib.Data.List.TakeWhile
import StoryPreview.Files.Path
/-!
Where included files are. A path is put together from pieces (`pieces_append_slash`, `pieces_join`), and
its components are those of the directory followed by those of the name (`components_push`). A name that
is not absolute and has no `..` stands for a file below the directory if it names anything; one that names
nothing stands for a file beside it (`components_ofInclude`).
-/
namespace StoryPreview.Path

/-! ## Pieces -/

theorem pieces_slash (cs : List Char) : pieces ('/' :: cs) = [] :: pieces cs := rfl

theorem pieces_ne_nil (cs : List Char) : pieces cs ≠ [] := by
  cases cs with
  | nil => exact List.cons_ne_nil _ _
  | cons c cs =>
    unfold pieces
    rw [List.foldr_cons]
    split
    · exact List.cons_ne_nil _ _
    · split <;> exact List.cons_ne_nil _ _

theorem pieces_cons {c : Char} (hc : c ≠ '/') {cs p : List Char} {ps : List (List Char)}
    (h : pieces cs = p :: ps) : pieces (c :: cs) = (c :: p) :: ps := by
  unfold pieces at h ⊢
  rw [List.foldr_cons, if_neg hc, h]

theorem pieces_append_slash (a b : List Char) : pieces (a ++ '/' :: b) = pieces a ++ pieces b := by
  induction a with
  | nil => rfl
  | cons c a ih =>
    rw [List.cons_append]
    by_cases hc : c = '/'
    · rw [hc, pieces_slash, pieces_slash, ih, List.cons_append]
    · obtain ⟨p, ps, hp⟩ := List.exists_cons_of_ne_nil (pieces_ne_nil a)
      rw [hp, List.cons_append] at ih
      rw [pieces_cons hc hp, pieces_cons hc ih, List.cons_append]

theorem pieces_of_slash_free {p : List Char} (h : '/' ∉ p) : pieces p = [p] := by
  induction p with
  | nil => rfl
  | cons c p ih =>
    rw [List.mem_cons, not_or] at h
    exact pieces_cons (Ne.symm h.1) (ih h.2)

theorem slash_free_of_mem_pieces {cs p : List Char} (h : p ∈ pieces cs) : '/' ∉ p := by
  induction cs generalizing p with
  | nil =>
    rw [List.mem_singleton.mp h]
    exact List.not_mem_nil
  | cons c cs ih =>
    by_cases hc : c = '/'
    · rw [hc, pieces_slash] at h
      rcases List.mem_cons.mp h with rfl | h
      · exact List.not_mem_nil
      · exact ih h
    · obtain ⟨q, qs, hq⟩ := List.exists_cons_of_ne_nil (pieces_ne_nil cs)
      rw [pieces_cons hc hq] at h
      rw [hq] at ih
      rcases List.mem_cons.mp h with rfl | h
      · rw [List.mem_cons, not_or]
        exact ⟨Ne.symm hc, ih List.mem_cons_self⟩
      · exact ih (List.mem_cons_of_mem q h)

/-- The pieces of a path that is joined from pieces. -/
theorem pieces_join {ps : List (List Char)} (hne : ps ≠ []) (h : ∀ p ∈ ps, '/' ∉ p) :
    pieces (join ps) = ps := by
  induction ps with
  | nil => exact absurd rfl hne
  | cons p ps ih =>
    have hp := pieces_of_slash_free (h p List.mem_cons_self)
    cases ps with
    | nil => exact hp
    | cons q qs =>
      rw [join, pieces_append_slash, hp,
        ih (List.cons_ne_nil q qs) fun r hr => h r (List.mem_cons_of_mem p hr)]
      · rfl
      · exact List.cons_ne_nil q qs

theorem join_pieces (cs : List Char) : join (pieces cs) = cs := by
  induction cs with
  | nil => rfl
  | cons c cs ih =>
    obtain ⟨p, ps, hp⟩ := List.exists_cons_of_ne_nil (pieces_ne_nil cs)
    rw [hp] at ih
    by_cases hc : c = '/'
    · rw [hc, pieces_slash, hp]
      exact congrArg (List.cons '/') ih
    · rw [pieces_cons hc hp]
      cases ps <;> exact congrArg (List.cons c) ih

/-! ## Components -/

/-- The component that the pieces of a path begin with when it is no name. -/
def origin : List (List Char) → List Component
  | [] => []
  | p :: ps => if p = [] ∧ ps ≠ [] then [.root] else if p = ['.'] then [.current] else []

/-- The components that are names or `..`. -/
def named (path : List Char) : List Component := (pieces path).filterMap component?

theorem component?_eq_none_iff {piece : List Char} : component? piece = none ↔ isIdle piece = true := by
  unfold component? isIdle
  by_cases h : (decide (piece = []) || decide (piece = ['.'])) = true
  · rw [if_pos h]
    exact ⟨fun _ => h, fun _ => rfl⟩
  · rw [if_neg h]
    refine ⟨fun hnone => ?_, fun h' => absurd h' h⟩
    split at hnone <;> cases hnone

theorem component?_cases {piece : List Char} {c : Component} (h : component? piece = some c) :
    c = .parent ∨ c = .name piece := by
  unfold component? at h
  split at h
  · cases h
  · split at h
    · cases h
      exact .inl rfl
    · cases h
      exact .inr rfl

theorem component?_of_length {piece : List Char} (h : 2 < piece.length) :
    component? piece = some (.name piece) := by
  unfold component?
  match piece, h with
  | _ :: _ :: _ :: _, _ => simp

theorem named_cases {path : List Char} {c : Component} (h : c ∈ named path) :
    c = .parent ∨ ∃ n, c = .name n := by
  obtain ⟨piece, _, hc⟩ := List.mem_filterMap.mp h
  exact (component?_cases hc).imp id fun hname => ⟨piece, hname⟩

theorem components_eq (path : List Char) : components path = origin (pieces path) ++ named path := by
  cases path with
  | nil => rfl
  | cons c cs =>
    obtain ⟨p, ps, hp⟩ := List.exists_cons_of_ne_nil (pieces_ne_nil cs)
    refine congrArg (· ++ named (c :: cs)) ?_
    by_cases hc : c = '/'
    · subst hc
      rw [pieces_slash, hp]
      rfl
    · have habs : isAbsolute (c :: cs) = false := by
        unfold isAbsolute
        split
        · next h => exact absurd (List.cons.inj h).1 hc
        · rfl
      rw [habs, pieces_cons hc hp]
      simp [origin]

theorem origin_append {ps qs qs' : List (List Char)} (hps : ps ≠ []) (hqs : qs ≠ []) (hqs' : qs' ≠ []) :
    origin (ps ++ qs) = origin (ps ++ qs') := by
  obtain ⟨p, ps, rfl⟩ := List.exists_cons_of_ne_nil hps
  simp [origin, hqs, hqs']

/-- What comes behind the first pieces does not matter, unless all there is before it is an empty piece. -/
theorem origin_append_of_ne {ps : List (List Char)} (hps : ps ≠ []) (hempty : ps ≠ [[]])
    (qs : List (List Char)) : origin (ps ++ qs) = origin ps := by
  obtain ⟨p, ps, rfl⟩ := List.exists_cons_of_ne_nil hps
  by_cases hp : p = []
  · subst hp
    have hps' : ps ≠ [] := fun h => hempty (congrArg _ h)
    simp [origin, hps']
  · simp [origin, hp]

theorem origin_of_not_idle {p : List Char} (h : isIdle p = false) (ps : List (List Char)) :
    origin (p :: ps) = [] := by
  unfold isIdle at h
  rw [Bool.or_eq_false_iff, decide_eq_false_iff_not, decide_eq_false_iff_not] at h
  simp [origin, h.1, h.2]

theorem name_notMem_origin (ps : List (List Char)) (n : List Char) : .name n ∉ origin ps := by
  unfold origin
  split
  · exact List.not_mem_nil
  · split
    · simp
    · split <;> simp

theorem named_eq_nil_iff {path : List Char} : named path = [] ↔ ∀ p ∈ pieces path, isIdle p = true := by
  unfold named
  rw [List.filterMap_eq_nil_iff]
  exact forall₂_congr fun _ _ => component?_eq_none_iff

theorem name_notMem_of_named_eq_nil {path : List Char} (h : named path = []) (n : List Char) :
    .name n ∉ components path := by
  rw [components_eq, h, List.append_nil]
  exact name_notMem_origin (pieces path) n

/-- Only the empty path has no components. -/
theorem components_eq_nil_iff {path : List Char} : components path = [] ↔ path = [] := by
  refine ⟨fun h => ?_, fun h => h ▸ rfl⟩
  rw [components_eq, List.append_eq_nil_iff] at h
  obtain ⟨horigin, hnamed⟩ := h
  cases path with
  | nil => rfl
  | cons c cs =>
    obtain ⟨p, ps, hp⟩ := List.exists_cons_of_ne_nil (pieces_ne_nil cs)
    by_cases hc : c = '/'
    · rw [hc, pieces_slash, hp] at horigin
      cases horigin
    · rw [pieces_cons hc hp] at horigin
      have hidle : isIdle (c :: p) = true :=
        named_eq_nil_iff.mp hnamed _ (by rw [pieces_cons hc hp]; exact List.mem_cons_self)
      have hdot : c :: p = ['.'] := by simpa [isIdle] using hidle
      rw [hdot] at horigin
      cases horigin

/-! ## A name seen from a directory -/

/-- The components of a name behind those of a directory. A `.` at the start of the name stays there
only if the directory is the empty path. -/
def below (root name : List Component) : List Component :=
  if root = [] then name else root ++ name.filter (· ≠ .current)

theorem components_of_not_absolute {path : List Char} (h : isAbsolute path = false) :
    components path = named path ∨ components path = .current :: named path := by
  unfold components
  dsimp only
  rw [h]
  by_cases hdot : (pieces path).head? = some ['.']
  · rw [if_neg Bool.false_ne_true, if_pos hdot]
    exact .inr rfl
  · rw [if_neg Bool.false_ne_true, if_neg hdot]
    exact .inl rfl

theorem filter_named (path : List Char) : (named path).filter (· ≠ .current) = named path := by
  refine List.filter_eq_self.mpr fun c hc => ?_
  rcases named_cases hc with rfl | ⟨n, rfl⟩ <;> rfl

theorem filter_components {name : List Char} (habs : isAbsolute name = false) :
    (components name).filter (· ≠ .current) = named name := by
  rcases components_of_not_absolute habs with h | h
  · rw [h, filter_named]
  · rw [h, List.filter_cons_of_neg (by decide), filter_named]

/-- The pieces of a path that goes on behind a directory. The directory is written with or without a
slash at its end. -/
theorem pieces_push {root name : List Char} (hroot : root ≠ []) (habs : isAbsolute name = false) :
    ∃ ps, ps ≠ [] ∧ pieces (push root name) = ps ++ pieces name ∧
      ((pieces root = ps ∧ ps ≠ [[]]) ∨ pieces root = ps ++ [[]]) := by
  unfold push
  rw [habs, decide_eq_false hroot, Bool.or_self, if_neg Bool.false_ne_true]
  split
  · next hslash =>
    obtain ⟨r, rfl⟩ := List.getLast?_eq_some_iff.mp hslash
    refine ⟨pieces r, pieces_ne_nil r, ?_, .inr (pieces_append_slash r [])⟩
    rw [List.append_assoc]
    exact pieces_append_slash r name
  · refine ⟨pieces root, pieces_ne_nil root, pieces_append_slash root name, .inl ⟨rfl, fun h => ?_⟩⟩
    have := congrArg join h
    rw [join_pieces] at this
    exact hroot this

theorem components_push (root : List Char) {name : List Char} (habs : isAbsolute name = false) :
    components (push root name) = below (components root) (components name) := by
  unfold below
  split
  · next h =>
    rw [components_eq_nil_iff.mp h]
    unfold push
    simp
  · next h =>
    obtain ⟨ps, hne, hpush, hroot⟩ := pieces_push (mt components_eq_nil_iff.mpr h) habs
    rw [components_eq, components_eq root, filter_components habs, named, named, named, hpush,
      List.filterMap_append, ← List.append_assoc]
    refine congrArg (· ++ _) ?_
    rcases hroot with ⟨hpieces, hempty⟩ | hpieces
    · rw [hpieces, origin_append_of_ne hne hempty]
    · rw [hpieces, List.filterMap_append,
        origin_append hne (pieces_ne_nil name) (List.cons_ne_nil [] [])]
      exact congrArg _ (List.append_nil _).symm

/-! ## File names -/

theorem isIdle_of_component? {p : List Char} {c : Component} (h : component? p = some c) :
    isIdle p = false := by
  rw [← Bool.not_eq_true, ← component?_eq_none_iff, h]
  exact Option.some_ne_none c

theorem origin_append_of_not_idle {init : List (List Char)} {p q : List Char} (hp : isIdle p = false)
    (hq : isIdle q = false) (ps qs : List (List Char)) :
    origin (init ++ p :: ps) = origin (init ++ q :: qs) := by
  cases init with
  | nil => exact (origin_of_not_idle hp ps).trans (origin_of_not_idle hq qs).symm
  | cons r init =>
    exact origin_append (List.cons_ne_nil r init) (List.cons_ne_nil p ps) (List.cons_ne_nil q qs)

/-- The components of a path up to its last piece that counts. -/
theorem components_of_pieces {path p : List Char} {init idle : List (List Char)} {c : Component}
    (h : pieces path = init ++ p :: idle) (hc : component? p = some c)
    (hidle : ∀ q ∈ idle, isIdle q = true) :
    components path = origin (init ++ [p]) ++ init.filterMap component? ++ [c] := by
  have hp := isIdle_of_component? hc
  have hnone : idle.filterMap component? = [] :=
    List.filterMap_eq_nil_iff.mpr fun q hq => component?_eq_none_iff.mpr (hidle q hq)
  rw [components_eq, named, h, List.filterMap_append, List.filterMap_cons_some hc, hnone,
    origin_append_of_not_idle hp hp idle [], List.append_assoc]

theorem significant_cases (path : List Char) :
    (significant path = none ∧ ∀ p ∈ pieces path, isIdle p = true) ∨
      ∃ init p idle, significant path = some (init ++ [p]) ∧ pieces path = init ++ p :: idle ∧
        isIdle p = false ∧ ∀ q ∈ idle, isIdle q = true := by
  have hsplit := List.takeWhile_append_dropWhile (p := isIdle) (l := (pieces path).reverse)
  unfold significant
  cases hdrop : (pieces path).reverse.dropWhile isIdle with
  | nil =>
    refine .inl ⟨rfl, fun p hp => ?_⟩
    exact List.dropWhile_eq_nil_iff.mp hdrop p (List.mem_reverse.mpr hp)
  | cons p before =>
    refine .inr ⟨before.reverse, p, ((pieces path).reverse.takeWhile isIdle).reverse, ?_, ?_, ?_, ?_⟩
    · exact congrArg some List.reverse_cons
    · rw [hdrop] at hsplit
      have := congrArg List.reverse hsplit
      simpa using this.symm
    · have hhead := List.head_dropWhile_not isIdle (hdrop ▸ List.cons_ne_nil p before)
      simpa only [hdrop, List.head_cons] using hhead
    · exact fun q hq => List.mem_takeWhile_imp (List.mem_reverse.mp hq)

/-- Either a path has a file name, and nothing that counts comes behind it, or its last component is
no name. -/
theorem fileName_cases (path : List Char) :
    (fileName path = none ∧ ∀ init n, components path ≠ init ++ [.name n]) ∨
      ∃ before n idle, fileName path = some n ∧ significant path = some (before ++ [n]) ∧
        pieces path = before ++ n :: idle ∧ component? n = some (.name n) ∧
        ∀ p ∈ idle, isIdle p = true := by
  rcases significant_cases path with ⟨hsig, hall⟩ | ⟨before, p, idle, hsig, hpieces, hp, hidle⟩
  · refine .inl ⟨by rw [fileName, hsig]; rfl, fun init n h => ?_⟩
    exact name_notMem_of_named_eq_nil (named_eq_nil_iff.mpr hall) n (h ▸ List.mem_concat_self)
  · have hname : fileName path = if p = ['.', '.'] then none else some p := by
      rw [fileName, hsig, Option.bind_some, List.getLast?_concat]
    have hc : component? p = if p = ['.', '.'] then some .parent else some (.name p) :=
      if_neg (ne_true_of_eq_false hp)
    by_cases hparent : p = ['.', '.']
    · rw [if_pos hparent] at hname hc
      refine .inl ⟨hname, fun init n h => ?_⟩
      rw [components_of_pieces hpieces hc hidle] at h
      cases (List.append_inj' h rfl).2
    · rw [if_neg hparent] at hname hc
      exact .inr ⟨before, p, idle, hname, hsig, hpieces, hc, hidle⟩

theorem fileName_of_components {path n : List Char} {init : List Component}
    (h : components path = init ++ [.name n]) : fileName path = some n := by
  rcases fileName_cases path with ⟨-, hno⟩ | ⟨before, n', idle, hname, -, hpieces, hc, hidle⟩
  · exact absurd h (hno init n)
  · rw [components_of_pieces hpieces hc hidle] at h
    cases (List.append_inj' h rfl).2
    exact hname

theorem fileName_eq_none {path : List Char} (h : ∀ init n, components path ≠ init ++ [.name n]) :
    fileName path = none := by
  rcases fileName_cases path with ⟨hfile, -⟩ | ⟨before, n, idle, -, -, hpieces, hc, hidle⟩
  · exact hfile
  · exact absurd (components_of_pieces hpieces hc hidle) (h _ n)

/-- A file name is cut at a point that something stands before, or not at all. -/
theorem splitName_cases (name : List Char) :
    ('.' ∉ name.tail ∧ splitName name = (name, none)) ∨
      ∃ stem ext, stem ≠ [] ∧ '.' ∉ ext ∧ name = stem ++ '.' :: ext ∧ splitName name = (stem, some ext) := by
  unfold splitName
  dsimp only
  by_cases hmem : '.' ∈ name
  · obtain ⟨behind, before, hname, hbehind⟩ := List.eq_append_cons_of_mem (List.mem_reverse.mpr hmem)
    have hpos : ∀ c ∈ behind, decide (c ≠ '.') = true := fun c hc =>
      decide_eq_true fun heq => hbehind (heq ▸ hc)
    have hdrop : name.reverse.dropWhile (· ≠ '.') = '.' :: before := by
      rw [hname, List.dropWhile_append_of_pos hpos]
      rfl
    have htake : name.reverse.takeWhile (· ≠ '.') = behind := by
      rw [hname, List.takeWhile_append_of_pos hpos]
      exact List.append_nil behind
    have htext : name = before.reverse ++ '.' :: behind.reverse := by
      rw [← List.reverse_reverse name, hname, List.reverse_append, List.reverse_cons, List.append_assoc]
      rfl
    rw [hdrop, htake]
    cases before with
    | nil =>
      refine .inl ⟨?_, rfl⟩
      rw [htext]
      exact mt List.mem_reverse.mp hbehind
    | cons c before =>
      refine .inr ⟨(c :: before).reverse, behind.reverse, ?_, mt List.mem_reverse.mp hbehind, htext, rfl⟩
      exact mt List.reverse_eq_nil_iff.mp (List.cons_ne_nil c before)
  · have hdrop : name.reverse.dropWhile (· ≠ '.') = [] :=
      List.dropWhile_eq_nil_iff.mpr fun c hc =>
        decide_eq_true fun heq => hmem (heq ▸ List.mem_reverse.mp hc)
    rw [hdrop]
    exact .inl ⟨mt List.mem_of_mem_tail hmem, rfl⟩

theorem splitName_eq_self {name : List Char} (h : '.' ∉ name.tail) : splitName name = (name, none) := by
  rcases splitName_cases name with ⟨-, hsplit⟩ | ⟨stem, ext, hstem, -, rfl, -⟩
  · exact hsplit
  · obtain ⟨c, stem, rfl⟩ := List.exists_cons_of_ne_nil hstem
    exact absurd (List.mem_append_right stem List.mem_cons_self) h

theorem isSome_splitName_snd {name : List Char} (h : '.' ∈ name.tail) : (splitName name).2.isSome = true := by
  rcases splitName_cases name with ⟨hno, -⟩ | ⟨stem, ext, -, -, -, hsplit⟩
  · exact absurd h hno
  · rw [hsplit]
    rfl

theorem splitName_fst (name : List Char) :
    (splitName name).1 <+: name ∧ (name ≠ [] → (splitName name).1 ≠ []) := by
  rcases splitName_cases name with ⟨-, hsplit⟩ | ⟨stem, ext, hstem, -, rfl, hsplit⟩
  · rw [hsplit]
    exact ⟨List.prefix_rfl, id⟩
  · rw [hsplit]
    exact ⟨List.prefix_append stem _, fun _ => hstem⟩

theorem withExtension_of_fileName_none {path : List Char} (h : fileName path = none) (ext : List Char) :
    withExtension path ext = path := by
  rw [withExtension, h]

/-- An extension that is set changes the last component only. -/
theorem components_withExtension {path n ext : List Char} {init : List Component} (hext : ext ≠ [])
    (hslash : '/' ∉ ext) (h : components path = init ++ [.name n]) :
    components (withExtension path ext) = init ++ [.name ((splitName n).1 ++ '.' :: ext)] := by
  rcases fileName_cases path with ⟨-, hno⟩ | ⟨before, n', idle, hname, hsig, hpieces, hc, hidle⟩
  · exact absurd h (hno init n)
  rw [components_of_pieces hpieces hc hidle] at h
  obtain ⟨rfl, hn⟩ := List.append_inj' h rfl
  cases hn
  obtain ⟨hstart, hstem⟩ := splitName_fst n
  have hn : n ≠ [] := by
    rintro rfl
    cases hc
  have hnew : component? ((splitName n).1 ++ '.' :: ext) = some (.name ((splitName n).1 ++ '.' :: ext)) := by
    refine component?_of_length ?_
    rw [List.length_append, List.length_cons]
    have := List.length_pos_iff.mpr (hstem hn)
    have := List.length_pos_iff.mpr hext
    omega
  have hfree : ∀ p ∈ before ++ [(splitName n).1 ++ '.' :: ext], '/' ∉ p := by
    have hold : ∀ p ∈ before ++ n :: idle, '/' ∉ p := fun p hp => slash_free_of_mem_pieces (hpieces ▸ hp)
    intro p hp
    rcases List.mem_append.mp hp with hp | hp
    · exact hold p (List.mem_append_left _ hp)
    · rw [List.mem_singleton.mp hp, List.mem_append, List.mem_cons, not_or, not_or]
      refine ⟨fun h => ?_, by decide, hslash⟩
      exact hold n (List.mem_append_right before List.mem_cons_self) (hstart.subset h)
  have hjoin := pieces_join (List.append_ne_nil_of_right_ne_nil _ (List.cons_ne_nil _ _)) hfree
  rw [withExtension, hname, hsig]
  dsimp only
  rw [List.dropLast_concat, components_of_pieces hjoin hnew (fun _ hq => absurd hq List.not_mem_nil),
    origin_append_of_not_idle (isIdle_of_component? hnew) (isIdle_of_component? hc) [] []]

/-! ## Included files -/

/-- The last component of an included file, for a name that ends with `n`. -/
def suffixed (n : List Char) : List Char := if '.' ∈ n.tail then n else n ++ ['.', 'm', 'd']

theorem below_concat (root init : List Component) :
    ∃ rest, ∀ n, below root (init ++ [.name n]) = root ++ (rest ++ [.name n]) := by
  unfold below
  by_cases hroot : root = []
  · exact ⟨init, fun n => by rw [if_pos hroot, hroot, List.nil_append]⟩
  · exact ⟨init.filter (· ≠ .current), fun n => by rw [if_neg hroot, List.filter_append]; rfl⟩

/-- A path without `..` ends with a name or has none. -/
theorem named_eq_nil_or {name : List Char} (hparent : .parent ∉ components name) :
    named name = [] ∨ ∃ init n, components name = init ++ [.name n] := by
  rcases List.eq_nil_or_concat (named name) with hnil | ⟨init, c, hconcat⟩
  · exact .inl hnil
  rw [List.concat_eq_append] at hconcat
  have hmem : c ∈ named name := hconcat ▸ List.mem_concat_self
  have hcomponents : ∃ init', components name = init' ++ [c] := by
    rw [components_eq, hconcat, ← List.append_assoc]
    exact ⟨_, rfl⟩
  obtain ⟨init', h⟩ := hcomponents
  rcases named_cases hmem with rfl | ⟨n, rfl⟩
  · exact absurd (h ▸ List.mem_append_right init' (List.mem_singleton_self _)) hparent
  · exact .inr ⟨init', n, h⟩

theorem name_notMem_iff {name : List Char} (hparent : .parent ∉ components name) :
    (∀ n, .name n ∉ components name) ↔ named name = [] := by
  refine ⟨fun h => List.eq_nil_iff_forall_not_mem.mpr fun c hc => ?_, name_notMem_of_named_eq_nil⟩
  rw [components_eq] at hparent
  have hmem := List.mem_append_right (origin (pieces name)) hc
  rcases named_cases hc with rfl | ⟨n, rfl⟩
  · exact hparent hmem
  · rw [← components_eq] at hmem
    exact h n hmem

theorem toList_ofInclude (root name : String) :
    (ofInclude root name).toList =
      if (extension name.toList).isSome then push root.toList name.toList
      else withExtension (push root.toList name.toList) ['m', 'd'] :=
  String.toList_ofList

theorem components_ofInclude_file {root name : String} (habs : isAbsolute name.toList = false)
    {init : List Component} {n : List Char} (h : components name.toList = init ++ [.name n]) :
    components (ofInclude root name).toList =
      below (components root.toList) (init ++ [.name (suffixed n)]) := by
  have hpush := components_push root.toList habs
  have hext : extension name.toList = (splitName n).2 := by
    rw [extension, fileName_of_components h, Option.bind_some]
  rw [toList_ofInclude, hext, suffixed]
  by_cases hdot : '.' ∈ n.tail
  · rw [if_pos (isSome_splitName_snd hdot), if_pos hdot, hpush, h]
  · obtain ⟨rest, hbelow⟩ := below_concat (components root.toList) init
    have hsplit := splitName_eq_self hdot
    have hnone : ¬ (splitName n).2.isSome = true := by
      rw [hsplit]
      exact Bool.false_ne_true
    rw [h, hbelow, ← List.append_assoc] at hpush
    rw [if_neg hnone, if_neg hdot, hbelow, components_withExtension (by decide) (by decide) hpush, hsplit,
      List.append_assoc]

/-- A name that names nothing leaves the path of the directory, and it is there that the extension is
set. -/
theorem components_ofInclude_nameless (root : String) {name : String} (habs : isAbsolute name.toList = false)
    (h : named name.toList = []) :
    (∀ init n, components root.toList = init ++ [.name n] →
        components (ofInclude root name).toList = init ++ [.name ((splitName n).1 ++ ['.', 'm', 'd'])]) ∧
      ((∀ init n, components root.toList ≠ init ++ [.name n]) →
        components (ofInclude root name).toList = below (components root.toList) (components name.toList)) := by
  have hno : ∀ init n, components name.toList ≠ init ++ [.name n] := fun init n heq =>
    name_notMem_of_named_eq_nil h n (heq ▸ List.mem_concat_self)
  have hext : extension name.toList = none := by
    rw [extension, fileName_eq_none hno, Option.bind_none]
  have hpath : (ofInclude root name).toList = withExtension (push root.toList name.toList) ['m', 'd'] := by
    rw [toList_ofInclude, hext]
    exact if_neg Bool.false_ne_true
  have hpush := components_push root.toList habs
  rw [hpath]
  refine ⟨fun init n hroot => ?_, fun hroot => ?_⟩
  · have hne : components root.toList ≠ [] := by
      rw [hroot]
      exact List.concat_ne_nil _ init
    rw [below, if_neg hne, filter_components habs, h, List.append_nil, hroot] at hpush
    exact components_withExtension (by decide) (by decide) hpush
  · have hfile : fileName (push root.toList name.toList) = none := fileName_eq_none fun init n heq => by
      rw [heq, below, filter_components habs, h, List.append_nil] at hpush
      split at hpush
      · exact hno init n hpush.symm
      · exact hroot init n hpush.symm
    rw [withExtension_of_fileName_none hfile, hpush]

/-- So its file is not below the directory, unless the directory is the empty path. -/
theorem not_below_of_nameless {root name : String} (habs : isAbsolute name.toList = false)
    (h : named name.toList = []) (hempty : ¬ (root = "" ∧ name ≠ "")) :
    ¬ ∃ rest, rest ≠ [] ∧ components (ofInclude root name).toList = components root.toList ++ rest := by
  rintro ⟨rest, hne, hrest⟩
  obtain ⟨hfile, hnofile⟩ := components_ofInclude_nameless root habs h
  by_cases hroot : ∃ init n, components root.toList = init ++ [.name n]
  · obtain ⟨init, n, hroot⟩ := hroot
    have hlength := congrArg List.length ((hfile init n hroot).symm.trans hrest)
    rw [hroot, List.length_append, List.length_append, List.length_append] at hlength
    have hpos := List.length_pos_iff.mpr hne
    simp only [List.length_singleton] at hlength
    omega
  · have hpath := hnofile fun init n heq => hroot ⟨init, n, heq⟩
    rw [hrest, below] at hpath
    split at hpath
    · next hnil =>
      rw [hnil, List.nil_append] at hpath
      refine hempty ⟨String.toList_eq_nil_iff.mp (components_eq_nil_iff.mp hnil), ?_⟩
      rintro rfl
      exact hne hpath
    · rw [filter_components habs, h] at hpath
      exact hne (List.append_cancel_left hpath)

/-- Where the file of an include name is, seen from the directory that names are looked up in. It is below
the directory if the name names anything. A name that is empty, or single dots and slashes only, stands for
a file beside the directory, which has the directory's name with the extension put on. -/
theorem components_ofInclude {root name : String} (habs : isAbsolute name.toList = false)
    (hparent : .parent ∉ components name.toList) :
    ((∃ rest, rest ≠ [] ∧ components (ofInclude root name).toList = components root.toList ++ rest) ↔
        (∃ n, .name n ∈ components name.toList) ∨ (root = "" ∧ name ≠ "")) ∧
      (∀ init n, components name.toList = init ++ [.name n] →
        components (ofInclude root name).toList =
          below (components root.toList) (init ++ [.name (suffixed n)])) ∧
      ((∀ n, .name n ∉ components name.toList) → ∀ init n, components root.toList = init ++ [.name n] →
        components (ofInclude root name).toList = init ++ [.name ((splitName n).1 ++ ['.', 'm', 'd'])]) := by
  have hbelow : ∀ init n, components name.toList = init ++ [.name n] →
      ∃ rest, rest ≠ [] ∧ components (ofInclude root name).toList = components root.toList ++ rest := by
    intro init n h
    obtain ⟨rest, hrest⟩ := below_concat (components root.toList) init
    exact ⟨rest ++ [.name (suffixed n)], List.concat_ne_nil _ rest,
      (components_ofInclude_file habs h).trans (hrest (suffixed n))⟩
  refine ⟨⟨fun hrest => ?_, ?_⟩, fun init n => components_ofInclude_file habs, fun hnone init n => ?_⟩
  · by_contra hneither
    obtain ⟨hnone, hempty⟩ := not_or.mp hneither
    exact not_below_of_nameless habs ((name_notMem_iff hparent).mp (not_exists.mp hnone)) hempty hrest
  · rintro (⟨n, hn⟩ | ⟨rfl, hne⟩)
    · rcases named_eq_nil_or hparent with hnamed | ⟨init, n, h⟩
      · exact absurd hn ((name_notMem_iff hparent).mpr hnamed n)
      · exact hbelow init n h
    · rcases named_eq_nil_or hparent with hnamed | ⟨init, n, h⟩
      · have hnil : components "".toList = [] := components_eq_nil_iff.mpr String.toList_empty
        have hpath := (components_ofInclude_nameless "" habs hnamed).2 fun init n h =>
          List.concat_ne_nil _ init (h.symm.trans hnil)
        rw [hnil, below, if_pos rfl] at hpath
        refine ⟨components name.toList, fun h => ?_, by rw [hpath, hnil, List.nil_append]⟩
        exact hne (String.toList_eq_nil_iff.mp (components_eq_nil_iff.mp h))
      · exact hbelow init n h
  · exact (components_ofInclude_nameless root habs ((name_notMem_iff hparent).mp hnone)).1 init n

/-- A hidden file, with idle pieces around it and points in the names of two directories. -/
theorem components_ofInclude_lamp :
    isAbsolute "./b.c//.lamp/.".toList = false ∧ .parent ∉ components "./b.c//.lamp/.".toList ∧
      components (ofInclude "a.d/" "./b.c//.lamp/.").toList =
        [.name "a.d".toList, .name "b.c".toList, .name ".lamp.md".toList] := by
  have habs : isAbsolute "./b.c//.lamp/.".toList = false := by decide
  have hparent : .parent ∉ components "./b.c//.lamp/.".toList := by decide
  have hname : components "./b.c//.lamp/.".toList =
      [.current, .name "b.c".toList] ++ [.name ".lamp".toList] := by decide
  refine ⟨habs, hparent, ((components_ofInclude habs hparent).2.1 _ _ hname).trans ?_⟩
  decide

/-- The empty name stands for a file that is not below the directory. -/
theorem ofInclude_beside_harbor :
    isAbsolute "".toList = false ∧ .parent ∉ components "".toList ∧
      ofInclude "stories/harbor" "" = "stories/harbor.md" ∧
      ¬ ∃ rest, rest ≠ [] ∧
        components (ofInclude "stories/harbor" "").toList = components "stories/harbor".toList ++ rest := by
  have hpath : ofInclude "stories/harbor" "" = "stories/harbor.md" := by decide
  refine ⟨by decide, by decide, hpath, fun ⟨rest, hne, h⟩ => ?_⟩
  rw [hpath] at h
  have hlength := congrArg List.length h
  have hfile : (components "stories/harbor.md".toList).length = 2 := by decide
  have hroot : (components "stories/harbor".toList).length = 2 := by decide
  rw [List.length_append, hfile, hroot] at hlength
  exact hne (List.length_eq_zero_iff.mp (by omega))

end StoryPreview.Path
