import JitTrace.Profile.Skip
import Mathlib.Data.List.Infix

/-!
# Patterns of skipped frames

The categories of skipped frames are patterns that are searched for anywhere in a label. `Matches`
says what a pattern matches and where, and the tests for the categories are shown to be such
searches. In the pattern of inline caches the start of the label belongs to its first alternative
only, so the category takes in whatever mentions a handler or an inline cache.
-/

namespace JitTrace.Skip

/-! ## Patterns -/

/-- What can be searched for in a label. The start and the finish match where the label begins and
ends, and `both` matches one behind the other. -/
inductive Pattern where
  | start
  | finish
  | text (part : String)
  | digit
  | both (first second : Pattern)
  | either (first second : Pattern)
  | repeated (part : Pattern)

/-- Matches one behind the other, any number of them. -/
inductive Repeats (once : List Char → List Char → List Char → Prop) :
    List Char → List Char → List Char → Prop where
  | done (before after : List Char) : Repeats once before [] after
  | again {before first rest after : List Char} : once before first (rest ++ after) →
      Repeats once (before ++ first) rest after → Repeats once before (first ++ rest) after

namespace Pattern

/-- A pattern matches a piece of a text, between what stands before and behind it. -/
def Matches : Pattern → List Char → List Char → List Char → Prop
  | start, before, piece, _ => before = [] ∧ piece = []
  | finish, _, piece, after => piece = [] ∧ after = []
  | text part, _, piece, _ => piece = part.toList
  | digit, _, piece, _ => ∃ c, piece = [c] ∧ Text.isDecimalDigit c = true
  | both first second, before, piece, after => ∃ front back, piece = front ++ back ∧
      first.Matches before front (back ++ after) ∧ second.Matches (before ++ front) back after
  | either first second, before, piece, after =>
      first.Matches before piece after ∨ second.Matches before piece after
  | repeated part, before, piece, after => Repeats part.Matches before piece after

/-- A search for a pattern succeeds somewhere in a text. -/
def Found (pattern : Pattern) (label : List Char) : Prop :=
  ∃ before piece after, label = before ++ piece ++ after ∧ pattern.Matches before piece after

/-- A pattern or nothing. -/
def optional (part : Pattern) : Pattern :=
  either part (text "")

theorem found_text {part : String} {label : List Char} :
    (text part).Found label ↔ part.toList <:+: label := by
  constructor
  · rintro ⟨before, _, after, rfl, rfl⟩
    exact ⟨before, after, rfl⟩
  · rintro ⟨before, after, rfl⟩
    exact ⟨before, _, after, rfl, rfl⟩

theorem found_either {first second : Pattern} {label : List Char} :
    (either first second).Found label ↔ first.Found label ∨ second.Found label := by
  constructor
  · rintro ⟨before, piece, after, rfl, isFirst | isSecond⟩
    · exact .inl ⟨before, piece, after, rfl, isFirst⟩
    · exact .inr ⟨before, piece, after, rfl, isSecond⟩
  · rintro (⟨before, piece, after, rfl, isFirst⟩ | ⟨before, piece, after, rfl, isSecond⟩)
    · exact ⟨before, piece, after, rfl, .inl isFirst⟩
    · exact ⟨before, piece, after, rfl, .inr isSecond⟩

/-- A text behind the start is found where the label starts with it. -/
theorem found_start {part : String} {label : List Char} :
    (both start (text part)).Found label ↔ part.toList <+: label := by
  constructor
  · rintro ⟨_, _, after, rfl, _, _, rfl, ⟨rfl, rfl⟩, rfl⟩
    exact ⟨after, rfl⟩
  · rintro ⟨after, rfl⟩
    exact ⟨[], _, after, rfl, [], _, rfl, ⟨rfl, rfl⟩, rfl⟩

/-- What does not depend on its surroundings is matched again and again wherever it stands. -/
theorem repeats_iff {once : List Char → List Char → List Char → Prop} {IsPart : List Char → Prop}
    (ignores : ∀ before piece after, once before piece after ↔ IsPart piece)
    {before piece after : List Char} : Repeats once before piece after ↔
      ∃ parts : List (List Char), (∀ part ∈ parts, IsPart part) ∧ piece = parts.flatten := by
  constructor
  · intro repeats
    induction repeats with
    | done => exact ⟨[], by simp, rfl⟩
    | again isFirst _ inductionHypothesis =>
      obtain ⟨parts, each, rfl⟩ := inductionHypothesis
      exact ⟨_ :: parts, List.forall_mem_cons.mpr ⟨(ignores _ _ _).mp isFirst, each⟩, rfl⟩
  · rintro ⟨parts, each, rfl⟩
    induction parts generalizing before with
    | nil => exact .done before after
    | cons part parts inductionHypothesis =>
      obtain ⟨isFirst, others⟩ := List.forall_mem_cons.mp each
      exact .again ((ignores _ _ _).mpr isFirst) (inductionHypothesis others)

end Pattern

open Pattern

/-! ## Categories -/

def inlineCachePattern : Pattern :=
  either (both start (text "LoadGlobalIC: ")) <|
    either (text "Handler: ") <|
      either (either (text "CallIC") (either (text "LoadIC") (text "StoreIC"))) <|
        both (text "Builtin: ") <| both (optional (text "Keyed")) <|
          both (either (text "Load") (text "Store")) (text "IC_")

def bytecodePattern : Pattern :=
  both start (text "BytecodeHandler: ")

def builtinPattern : Pattern :=
  both start (text "Builtin: ")

def stubPattern : Pattern :=
  both start (text "Stub: ")

/-- A part of a version, such as `.6`. -/
def versionPattern : Pattern :=
  both (text ".") (both digit (repeated digit))

def libraryPattern : Pattern :=
  both (text ".") <| both (either (text "dll") (either (text "so") (text "dylib"))) <|
    both (repeated versionPattern) finish

theorem occursIn_iff {part label : List Char} :
    Text.occursIn part label = true ↔ part <:+: label := by
  induction label with
  | nil => rw [Text.occursIn, List.isEmpty_iff, List.infix_nil]
  | cons c label inductionHypothesis =>
    rw [Text.occursIn, Bool.or_eq_true, inductionHypothesis, List.isPrefixOf_iff_prefix,
      List.infix_cons_iff]

theorem startsWith_iff {label : List Char} {front : String} :
    startsWith label front = true ↔ (both start (text front)).Found label := by
  rw [startsWith, List.isPrefixOf_iff_prefix, found_start]

theorem mentions_iff {label : List Char} {part : String} :
    mentions label part = true ↔ (text part).Found label := by
  rw [mentions, occursIn_iff, found_text]

/-- The builtins among the inline caches mention one of them anyway. -/
theorem found_inlineCachePattern {label : List Char} :
    inlineCachePattern.Found label ↔
      (both start (text "LoadGlobalIC: ")).Found label ∨ (text "Handler: ").Found label ∨
        (text "CallIC").Found label ∨ (text "LoadIC").Found label ∨
          (text "StoreIC").Found label := by
  have redundant : (both (text "Builtin: ") <| both (optional (text "Keyed")) <|
      both (either (text "Load") (text "Store")) (text "IC_")).Found label →
        (text "CallIC").Found label ∨ (text "LoadIC").Found label ∨
          (text "StoreIC").Found label := by
    rintro ⟨before, piece, after, rfl, matched⟩
    simp only [Matches] at matched
    obtain ⟨builtin, _, rfl, -, keyed, _, rfl, -, kind, ending, rfl, isKind, isEnding⟩ := matched
    have behind : before ++ (builtin ++ (keyed ++ (kind ++ ending))) ++ after =
        before ++ builtin ++ keyed ++ (kind ++ ending) ++ after := by
      simp only [List.append_assoc]
    rw [found_text, found_text, found_text, behind, isEnding]
    refine .inr (isKind.imp (fun isLoad => ?_) fun isStore => ?_)
    · exact ⟨before ++ builtin ++ keyed, '_' :: after, by rw [isLoad]; simp⟩
    · exact ⟨before ++ builtin ++ keyed, '_' :: after, by rw [isStore]; simp⟩
  rw [inlineCachePattern, found_either, found_either, found_either, found_either, found_either,
    or_iff_left_of_imp redundant]

theorem isInlineCache_iff {label : List Char} :
    isInlineCache label = true ↔ inlineCachePattern.Found label := by
  simp only [isInlineCache, Bool.or_eq_true, startsWith_iff, mentions_iff,
    found_inlineCachePattern, or_assoc]

/-! ### Libraries -/

/-- A part of a version: a point and digits. -/
def IsVersion (part : List Char) : Prop :=
  ∃ digits, digits ≠ [] ∧ (∀ c ∈ digits, Text.isDecimalDigit c = true) ∧ part = '.' :: digits

/-- A text ends in the extension of a library, and perhaps in a version behind it. -/
def EndsInLibrary (label : List Char) : Prop :=
  ∃ front, ∃ extension ∈ ["dll", "so", "dylib"], ∃ versions : List (List Char),
    (∀ part ∈ versions, IsVersion part) ∧
      label = front ++ '.' :: (extension.toList ++ versions.flatten)

theorem matches_versionPattern {before piece after : List Char} :
    versionPattern.Matches before piece after ↔ IsVersion piece := by
  have digits {before piece after : List Char} : (repeated digit).Matches before piece after ↔
      ∀ c ∈ piece, Text.isDecimalDigit c = true := by
    have ofOne : ∀ before piece after, digit.Matches before piece after ↔
        ∃ c, piece = [c] ∧ Text.isDecimalDigit c = true := fun _ _ _ => Iff.rfl
    rw [Matches, repeats_iff ofOne]
    constructor
    · rintro ⟨parts, each, rfl⟩ c inside
      obtain ⟨part, isPart, inPart⟩ := List.mem_flatten.mp inside
      obtain ⟨d, rfl, isDigit⟩ := each part isPart
      rwa [List.mem_singleton.mp inPart]
    · intro each
      refine ⟨piece.map ([·]), List.forall_mem_map.mpr fun c inside => ⟨c, rfl, each c inside⟩, ?_⟩
      rw [← List.flatMap_def, List.flatMap_singleton']
  constructor
  · rintro ⟨_, _, rfl, isPoint, _, rest, rfl, ⟨c, rfl, isDigit⟩, further⟩
    exact ⟨c :: rest, List.cons_ne_nil c rest,
      List.forall_mem_cons.mpr ⟨isDigit, digits.mp further⟩, congrArg (· ++ _) isPoint⟩
  · rintro ⟨_ | ⟨c, rest⟩, nonempty, each, rfl⟩
    · contradiction
    · obtain ⟨isDigit, further⟩ := List.forall_mem_cons.mp each
      exact ⟨['.'], c :: rest, rfl, rfl, [c], rest, rfl, ⟨c, rfl, isDigit⟩, digits.mpr further⟩

theorem found_libraryPattern {label : List Char} :
    libraryPattern.Found label ↔ EndsInLibrary label := by
  have ofExtension (before piece after : List Char) :
      (either (text "dll") (either (text "so") (text "dylib"))).Matches before piece after ↔
        ∃ extension ∈ ["dll", "so", "dylib"], piece = extension.toList := by
    simp [Matches]
  have ofVersion (before piece after : List Char) :
      versionPattern.Matches before piece after ↔ IsVersion piece := matches_versionPattern
  constructor
  · rintro ⟨before, _, _, rfl, point, _, rfl, isPoint, extension, _, rfl, isExtension, versions,
      _, rfl, areVersions, rfl, rfl⟩
    obtain ⟨name, listed, rfl⟩ := (ofExtension _ _ _).mp isExtension
    obtain ⟨parts, each, rfl⟩ := (repeats_iff ofVersion).mp areVersions
    exact ⟨before, name, listed, parts, each, by rw [isPoint]; simp⟩
  · rintro ⟨front, name, listed, parts, each, rfl⟩
    refine ⟨front, '.' :: (name.toList ++ parts.flatten), [], by simp, ['.'], _, rfl, rfl,
      name.toList, _, rfl, ?_, parts.flatten, [], by simp, ?_, rfl, rfl⟩
    · exact (ofExtension _ _ _).mpr ⟨name, listed, rfl⟩
    · exact (repeats_iff ofVersion).mpr ⟨parts, each, rfl⟩

/-- A text that ends in a library ends in its extension, or in a version of such a text. -/
theorem endsInLibrary_iff {label : List Char} : EndsInLibrary label ↔
    (∃ extension ∈ ["dll", "so", "dylib"], '.' :: extension.toList <:+ label) ∨
      ∃ shorter part, IsVersion part ∧ label = shorter ++ part ∧ EndsInLibrary shorter := by
  constructor
  · rintro ⟨front, extension, listed, versions, each, rfl⟩
    obtain rfl | ⟨further, part, rfl⟩ := List.eq_nil_or_concat versions
    · exact .inl ⟨extension, listed, by simp⟩
    · rw [List.concat_eq_append, List.forall_mem_append] at each
      refine .inr ⟨front ++ '.' :: (extension.toList ++ further.flatten), part,
        List.forall_mem_singleton.mp each.2, by simp, front, extension, listed, further, each.1,
        rfl⟩
  · rintro (⟨extension, listed, front, rfl⟩ |
      ⟨_, part, isVersion, rfl, front, extension, listed, versions, each, rfl⟩)
    · exact ⟨front, extension, listed, [], by simp, by simp⟩
    · refine ⟨front, extension, listed, versions ++ [part], ?_, by simp⟩
      exact List.forall_mem_append.mpr ⟨each, List.forall_mem_singleton.mpr isVersion⟩

/-- A version part at the end of a text is what its reverse begins with. -/
theorem span_reverse_iff {label front rest : List Char} :
    label.reverse.span Text.isDecimalDigit = (front, '.' :: rest) ↔
      label = rest.reverse ++ '.' :: front.reverse ∧
        ∀ c ∈ front, Text.isDecimalDigit c = true := by
  rw [List.span_eq_takeWhile_dropWhile, Prod.mk.injEq]
  constructor
  · rintro ⟨isFront, behind⟩
    have whole : label.reverse = front ++ '.' :: rest := by
      rw [← isFront, ← behind, List.takeWhile_append_dropWhile]
    refine ⟨by rw [← List.reverse_reverse label, whole]; simp, ?_⟩
    rw [← isFront]
    exact List.all_eq_true.mp List.all_takeWhile
  · rintro ⟨rfl, each⟩
    have point : Text.isDecimalDigit '.' = false := by decide
    have reversed : (rest.reverse ++ '.' :: front.reverse).reverse = front ++ '.' :: rest := by simp
    rw [reversed, List.takeWhile_append_of_pos each, List.dropWhile_append_of_pos each]
    simp [point]

/-- Read from its end, a text is taken apart into version parts until its extension is met. -/
theorem endsLikeLibrary_iff {fuel : Nat} {label : List Char} (enough : label.length < fuel) :
    endsLikeLibrary fuel label.reverse = true ↔ EndsInLibrary label := by
  have extensions : ∀ label : List Char, (startsWith label.reverse "lld." ||
      startsWith label.reverse "os." || startsWith label.reverse "bilyd.") = true ↔
        ∃ extension ∈ ["dll", "so", "dylib"], '.' :: extension.toList <:+ label := by
    intro label
    simp only [Bool.or_eq_true, startsWith, List.isPrefixOf_iff_prefix, List.exists_mem_cons_iff,
      List.not_mem_nil, false_and, exists_false, or_false, or_assoc, ← List.reverse_prefix]
    rfl
  induction fuel generalizing label with
  | zero => contradiction
  | succ fuel inductionHypothesis =>
    rw [endsInLibrary_iff, ← extensions, endsLikeLibrary]
    split
    · rename_i isExtension
      exact iff_of_true rfl (.inl isExtension)
    · rename_i noExtension
      rw [or_iff_right noExtension]
      constructor
      · intro goesOn
        split at goesOn
        · rename_i c digits rest apart
          obtain ⟨rfl, each⟩ := span_reverse_iff.mp apart
          have shorter : rest.reverse.length < fuel := by
            simp at enough ⊢
            omega
          refine ⟨rest.reverse, '.' :: (c :: digits).reverse, ⟨_, by simp, ?_, rfl⟩, rfl,
            (inductionHypothesis shorter).mp (by rwa [List.reverse_reverse])⟩
          exact fun d inside => each d (List.mem_reverse.mp inside)
        · contradiction
      · rintro ⟨shorter, _, ⟨digits, nonempty, each, rfl⟩, rfl, ends⟩
        obtain ⟨c, further, reversed⟩ :=
          List.exists_cons_of_ne_nil (mt List.reverse_eq_nil_iff.mp nonempty)
        have apart : (shorter ++ '.' :: digits).reverse.span Text.isDecimalDigit =
            (c :: further, '.' :: shorter.reverse) := by
          rw [span_reverse_iff, ← reversed, List.reverse_reverse, List.reverse_reverse]
          exact ⟨rfl, fun d inside => each d (List.mem_reverse.mp inside)⟩
        rw [apart]
        refine (inductionHypothesis ?_).mpr ends
        simp at enough ⊢
        omega

theorem isNativeLibrary_iff {label : List Char} :
    isNativeLibrary label = true ↔ libraryPattern.Found label := by
  rw [isNativeLibrary, endsLikeLibrary_iff (Nat.lt_succ_self _), found_libraryPattern]

/-! ### Filters -/

/-- The patterns that a filter selects. -/
def selected (filter : SkipFilter) : List Pattern :=
  (if filter.inlineCaches then [inlineCachePattern] else []) ++
    (if filter.bytecodes then [bytecodePattern] else []) ++
    (if filter.builtins then [builtinPattern] else []) ++
    (if filter.stubs then [stubPattern] else []) ++
    if filter.nativeLibraries then [libraryPattern] else []

/-- A label is skipped when a selected pattern is found in it. -/
theorem skips_iff_found (filter : SkipFilter) (label : String) :
    skips filter label = true ↔ ∃ pattern ∈ selected filter, pattern.Found label.toList := by
  have ofCategory (isSelected : Bool) (pattern : Pattern) :
      (∃ found ∈ if isSelected then [pattern] else [], found.Found label.toList) ↔
        isSelected = true ∧ pattern.Found label.toList := by
    cases isSelected <;> simp
  have bytecode : isBytecode label.toList = true ↔ bytecodePattern.Found label.toList :=
    startsWith_iff
  have builtin : isBuiltin label.toList = true ↔ builtinPattern.Found label.toList :=
    startsWith_iff
  have stub : isStub label.toList = true ↔ stubPattern.Found label.toList := startsWith_iff
  simp only [skips, selected, Bool.or_eq_true, Bool.and_eq_true, isInlineCache_iff, bytecode,
    builtin, stub, isNativeLibrary_iff, List.mem_append, or_and_right, exists_or, ofCategory]

/-! ## Handlers and functions -/

/-- What stands in front of a name without a point does not make it a library. -/
theorem endsInLibrary_append {front name : List Char} (pointless : '.' ∉ front) :
    EndsInLibrary (front ++ name) ↔ EndsInLibrary name := by
  constructor
  · rintro ⟨before, extension, listed, versions, each, whole⟩
    rcases List.append_eq_append_iff.mp whole with ⟨start, rfl, rfl⟩ | ⟨excess, rfl, behind⟩
    · exact ⟨start, extension, listed, versions, each, rfl⟩
    · cases excess with
      | nil => exact ⟨[], extension, listed, versions, each, behind.symm⟩
      | cons c excess =>
        obtain ⟨rfl, -⟩ := List.cons.inj behind
        exact absurd (List.mem_append_right before List.mem_cons_self) pointless
  · rintro ⟨before, extension, listed, versions, each, rfl⟩
    exact ⟨front ++ before, extension, listed, versions, each, by simp⟩

theorem isNativeLibrary_append {front name : List Char} (pointless : '.' ∉ front) :
    isNativeLibrary (front ++ name) = true ↔ libraryPattern.Found name := by
  rw [isNativeLibrary_iff, found_libraryPattern, found_libraryPattern,
    endsInLibrary_append pointless]

/-- The handler of a bytecode counts as a handler of inline caches, too. -/
theorem skips_bytecodeHandler (filter : SkipFilter) (name : String) :
    skips filter ("BytecodeHandler: " ++ name) = true ↔
      filter.bytecodes = true ∨ filter.inlineCaches = true ∨
        filter.nativeLibraries = true ∧ libraryPattern.Found name.toList := by
  have cache : isInlineCache ("BytecodeHandler: ".toList ++ name.toList) = true := by
    rw [isInlineCache_iff, found_inlineCachePattern]
    exact .inr (.inl (found_text.mpr ⟨"Bytecode".toList, name.toList, rfl⟩))
  have bytecode : isBytecode ("BytecodeHandler: ".toList ++ name.toList) = true :=
    startsWith_iff.mpr (found_start.mpr ⟨name.toList, rfl⟩)
  have builtin : isBuiltin ("BytecodeHandler: ".toList ++ name.toList) = false := rfl
  have stub : isStub ("BytecodeHandler: ".toList ++ name.toList) = false := rfl
  have native : isNativeLibrary ("BytecodeHandler: ".toList ++ name.toList) = true ↔
      libraryPattern.Found name.toList := isNativeLibrary_append (by decide)
  rw [skips, String.toList_append]
  simp only [cache, bytecode, builtin, stub, Bool.and_true, Bool.and_false, Bool.or_false,
    Bool.or_eq_true, Bool.and_eq_true, native]
  exact or_assoc.trans or_left_comm

/-- A function is skipped for what its name mentions. -/
theorem skips_function (filter : SkipFilter) (name : String) :
    skips filter ("JS: " ++ name) = true ↔
      (filter.inlineCaches = true ∧ ∃ part ∈ ["Handler: ", "CallIC", "LoadIC", "StoreIC"],
        part.toList <:+: name.toList) ∨
        filter.nativeLibraries = true ∧ libraryPattern.Found name.toList := by
  -- No part that is looked for begins in front of the name.
  have behind : isInlineCache ("JS: ".toList ++ name.toList) =
      (mentions name.toList "Handler: " || mentions name.toList "CallIC" ||
        mentions name.toList "LoadIC" || mentions name.toList "StoreIC") := rfl
  have cache : isInlineCache ("JS: ".toList ++ name.toList) = true ↔
      ∃ part ∈ ["Handler: ", "CallIC", "LoadIC", "StoreIC"], part.toList <:+: name.toList := by
    simp only [behind, Bool.or_eq_true, mentions_iff, found_text, List.exists_mem_cons_iff,
      List.not_mem_nil, false_and, exists_false, or_false, or_assoc]
  have bytecode : isBytecode ("JS: ".toList ++ name.toList) = false := rfl
  have builtin : isBuiltin ("JS: ".toList ++ name.toList) = false := rfl
  have stub : isStub ("JS: ".toList ++ name.toList) = false := rfl
  have native : isNativeLibrary ("JS: ".toList ++ name.toList) = true ↔
      libraryPattern.Found name.toList := isNativeLibrary_append (by decide)
  rw [skips, String.toList_append]
  simp only [cache, bytecode, builtin, stub, Bool.and_false, Bool.or_false,
    Bool.or_eq_true, Bool.and_eq_true, native]

theorem notFound_ldar : ¬libraryPattern.Found "Ldar".toList := by
  rw [← isNativeLibrary_iff]
  decide

theorem notFound_myLoadIC : ¬libraryPattern.Found "myLoadIC".toList := by
  rw [← isNativeLibrary_iff]
  decide

/-- Bytecode handlers and functions are left to their own categories by the filters without inline
caches, and by no others. -/
theorem independent_iff (filter : SkipFilter) :
    (∀ name : String, ¬libraryPattern.Found name.toList →
      (skips filter ("BytecodeHandler: " ++ name) = true ↔ filter.bytecodes = true) ∧
        skips filter ("JS: " ++ name) = false) ↔ filter.inlineCaches = false := by
  constructor
  · intro independent
    have kept := (independent "myLoadIC" notFound_myLoadIC).2
    rw [← Bool.not_eq_true, skips_function] at kept
    by_contra caches
    exact kept (.inl ⟨eq_true_of_ne_false caches, "LoadIC", by simp, ['m', 'y'], [], rfl⟩)
  · intro noCaches name notLibrary
    rw [← Bool.not_eq_true, skips_bytecodeHandler, skips_function]
    simp [noCaches, notLibrary]

/-- The settings that keep bytecode handlers as nodes of their own keep inline caches as well. -/
theorem keepsHandlers_iff (settings : ProfileSettings) :
    (∀ name : String, ¬libraryPattern.Found name.toList →
      skips settings.skipFilter ("BytecodeHandler: " ++ name) = false) ↔
      settings.separateBytecodes = true ∧ settings.separateInlineCaches = true := by
  have kept (name : String) (notLibrary : ¬libraryPattern.Found name.toList) :
      skips settings.skipFilter ("BytecodeHandler: " ++ name) = false ↔
        settings.separateBytecodes = true ∧ settings.separateInlineCaches = true := by
    rw [← Bool.not_eq_true, skips_bytecodeHandler]
    simp [ProfileSettings.skipFilter, notLibrary]
  constructor
  · intro all
    exact (kept "Ldar" notFound_ldar).mp (all "Ldar" notFound_ldar)
  · intro separate name notLibrary
    exact (kept name notLibrary).mpr separate

/-- Which handlers of bytecodes and which functions a filter drops. Where names of libraries are
left aside, the categories are independent in a filter without inline caches only, and bytecode
handlers are kept apart by the settings that keep inline caches apart as well, and by no others. -/
theorem skips_handlers_and_functions (filter : SkipFilter) (settings : ProfileSettings) :
    (∀ name : String, skips filter ("BytecodeHandler: " ++ name) = true ↔
      filter.bytecodes = true ∨ filter.inlineCaches = true ∨
        filter.nativeLibraries = true ∧ libraryPattern.Found name.toList) ∧
    (∀ name : String, skips filter ("JS: " ++ name) = true ↔
      (filter.inlineCaches = true ∧ ∃ part ∈ ["Handler: ", "CallIC", "LoadIC", "StoreIC"],
        part.toList <:+: name.toList) ∨
        filter.nativeLibraries = true ∧ libraryPattern.Found name.toList) ∧
    ((∀ name : String, ¬libraryPattern.Found name.toList →
      (skips filter ("BytecodeHandler: " ++ name) = true ↔ filter.bytecodes = true) ∧
        skips filter ("JS: " ++ name) = false) ↔ filter.inlineCaches = false) ∧
    ((∀ name : String, ¬libraryPattern.Found name.toList →
      skips settings.skipFilter ("BytecodeHandler: " ++ name) = false) ↔
      settings.separateBytecodes = true ∧ settings.separateInlineCaches = true) :=
  ⟨skips_bytecodeHandler filter, skips_function filter, independent_iff filter,
    keepsHandlers_iff settings⟩

/-- A filter of inline caches alone drops a bytecode handler, and a function for its name. -/
theorem skips_inlineCaches_ldar :
    skips { inlineCaches := true } "BytecodeHandler: Ldar" = true ∧
      skips { inlineCaches := true } "JS: *myLoadIC a.js:1:1" = true ∧
      ¬libraryPattern.Found "Ldar".toList ∧ ¬libraryPattern.Found "*myLoadIC a.js:1:1".toList := by
  refine ⟨by decide, by decide, notFound_ldar, ?_⟩
  rw [← isNativeLibrary_iff]
  decide

end JitTrace.Skip
