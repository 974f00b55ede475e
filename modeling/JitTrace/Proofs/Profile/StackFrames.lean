import JitTrace.Profile.Frames
import JitTrace.Proofs.Outcome
import JitTrace.Proofs.Record.Numbers

/-!
# Frames of a tick

Every frame of a tick stands for an address of its own, for a distance, or for nothing. A
distance counts from the last frame that stands for one, so that an address depends on the
distances up to it and on the program counter, and on no other frame.
-/

namespace JitTrace.StackText

open Number (HexNumber Marked Plussed readIn_hexadecimal)

/-- Hexadecimal digits whose marker may be left out. -/
abbrev HexText : List Char → Nat → Prop :=
  Marked (Plussed HexNumber) (Plussed HexNumber)

/-- What a frame stands for. -/
inductive FramePlace where
  | absolute (address : UInt64)
  | relative (distance : Int)
  | nowhere

namespace FramePlace

@[simp] def distance : FramePlace → Int
  | absolute _ => 0
  | relative distance => distance
  | nowhere => 0

/-- The address of a frame, where the distances up to it lead to `base`. -/
@[simp] def address? (base : UInt64) : FramePlace → Option UInt64
  | absolute address => some address
  | relative _ => some base
  | nowhere => none

end FramePlace

/-- The places of frames, by their trimmed texts. -/
inductive Denotes : List Char → FramePlace → Prop where
  | blank : Denotes [] .nowhere
  | marker (cs : List Char) : Denotes ('o' :: cs) .nowhere
  | above {digits : List Char} {distance : UInt64} (isNumber : HexText digits distance.toNat) :
    Denotes ('+' :: digits) (.relative distance.toNat)
  | below {digits : List Char} {distance : UInt64} (isNumber : HexText digits distance.toNat) :
    Denotes ('-' :: digits) (.relative (-distance.toNat))
  | absolute {cs : List Char} {address : UInt64} (unsigned : cs.head? ≠ some '+')
    (isNumber : HexText cs address.toNat) : Denotes cs (.absolute address)

/-- A frame is neither blank nor a marker. -/
def stands (frame : String) : Bool :=
  (Text.trim frame.toList).head?.any (· ≠ 'o')

def isRelative (frame : String) : Bool :=
  (Text.trim frame.toList).head?.any fun c => c = '+' ∨ c = '-'

/-- The relative frames of a stack, each with its address. -/
def relativeAddresses (frames : List String) (stack : List UInt64) : List (String × UInt64) :=
  ((frames.filter stands).zip stack).filter fun named => isRelative named.1

/-- Where the distances of some frames lead from the program counter. -/
def baseAfter (pc : UInt64) (places : List FramePlace) : UInt64 :=
  UInt64.ofInt (pc.toNat + (places.map FramePlace.distance).sum)

/-- The addresses of a stack: the relative ones count every distance up to their own. -/
def resolved (pc : UInt64) (places : List FramePlace) : List UInt64 :=
  (List.range places.length).filterMap fun index =>
    places[index]?.bind (·.address? (baseAfter pc (places.take (index + 1))))

variable {cs digits : List Char} {address : UInt64}

/-! ## Numbers of frames -/

theorem readAddress_marked (isMarked : Number.hexMarked? cs = some digits)
    (last : ∀ c ∈ cs.getLast?, Text.isBlank c = false) :
    Record.readAddress (String.ofList cs) = .ok address ↔
      Plussed HexNumber digits address.toNat := by
  have first : ∀ c ∈ cs.head?, Text.isBlank c = false := by
    rcases Number.hexMarked?_eq_some.mp isMarked with rfl | rfl
    · rintro _ ⟨⟩
      rfl
    · rintro _ ⟨⟩
      rfl
  rw [Record.readAddress_eq_ok, String.toList_ofList, Text.trim_eq_self first last]
  exact Number.marked_iff_of_some isMarked fun isNumber =>
    Number.readIn_decimal.not_marked isMarked (.plussed isNumber)

/-- The marker is put in front of digits that have none. -/
theorem readHex_eq_ok (last : ∀ c ∈ cs.getLast?, Text.isBlank c = false) :
    readHex cs = .ok address ↔ HexText cs address.toNat := by
  unfold readHex
  split
  · rename_i digits isMarked
    rw [readAddress_marked isMarked last]
    exact (Number.marked_iff_of_some isMarked fun isNumber =>
      readIn_hexadecimal.not_marked isMarked (.plussed isNumber)).symm
  · rename_i unmarked
    have marked : Number.hexMarked? ('0' :: 'x' :: cs) = some cs := rfl
    have visible := Text.getLast?_cons_visible (c := '0') rfl
      (Text.getLast?_cons_visible (c := 'x') rfl last)
    rw [readAddress_marked marked visible]
    exact (Number.marked_iff_of_none unmarked).symm

theorem HexText.exists_head {value : Nat} (isNumber : HexText cs value) :
    ∃ c, cs.head? = some c ∧ (c = '+' ∨ Number.digitValue? 16 c ≠ none) := by
  have plussed (isNumber : Plussed HexNumber cs value) :
      ∃ c, cs.head? = some c ∧ (c = '+' ∨ Number.digitValue? 16 c ≠ none) := by
    cases isNumber with
    | bare isNumber =>
      cases cs with
      | nil => exact absurd rfl isNumber.1
      | cons c cs =>
        exact ⟨c, rfl, .inr fun notDigit => readIn_hexadecimal.not_cons notDigit isNumber⟩
    | plus => exact ⟨'+', rfl, .inl rfl⟩
  have zero : Number.digitValue? 16 '0' ≠ none := by decide
  cases isNumber with
  | plain isNumber => exact plussed isNumber
  | lower => exact ⟨'0', rfl, .inr zero⟩
  | upper => exact ⟨'0', rfl, .inr zero⟩

/-! ## Places of frames -/

/-- A frame with an address of its own starts with a digit. -/
theorem Denotes.exists_digit (denotes : Denotes cs (.absolute address)) :
    ∃ c, cs.head? = some c ∧ Number.digitValue? 16 c ≠ none := by
  cases denotes with
  | absolute unsigned isNumber =>
    obtain ⟨c, isFirst, isPlus | isDigit⟩ := isNumber.exists_head
    · exact absurd (isPlus ▸ isFirst) unsigned
    · exact ⟨c, isFirst, isDigit⟩

theorem Denotes.not_absolute {c : Char} (notDigit : Number.digitValue? 16 c = none) :
    ¬ Denotes (c :: cs) (.absolute address) := by
  intro denotes
  obtain ⟨_, ⟨⟩, isDigit⟩ := denotes.exists_digit
  exact isDigit notDigit

variable {place : FramePlace}

theorem denotes_plus : Denotes ('+' :: digits) place ↔
    ∃ distance : UInt64, HexText digits distance.toNat ∧ place = .relative distance.toNat := by
  constructor
  · intro denotes
    cases denotes with
    | above isNumber => exact ⟨_, isNumber, rfl⟩
    | absolute unsigned => exact absurd rfl unsigned
  · rintro ⟨distance, isNumber, rfl⟩
    exact .above isNumber

theorem denotes_minus : Denotes ('-' :: digits) place ↔
    ∃ distance : UInt64, HexText digits distance.toNat ∧ place = .relative (-distance.toNat) := by
  constructor
  · intro denotes
    cases denotes with
    | below isNumber => exact ⟨_, isNumber, rfl⟩
    | absolute unsigned isNumber =>
      exact absurd (.absolute unsigned isNumber) (Denotes.not_absolute Number.digitValue?_minus)
  · rintro ⟨distance, isNumber, rfl⟩
    exact .below isNumber

theorem denotes_marker : Denotes ('o' :: cs) place ↔ place = .nowhere := by
  constructor
  · intro denotes
    cases denotes with
    | marker => rfl
    | absolute unsigned isNumber =>
      exact absurd (.absolute unsigned isNumber) (Denotes.not_absolute (by decide))
  · rintro rfl
    exact .marker cs

theorem denotes_nil : Denotes [] place ↔ place = .nowhere := by
  constructor
  · intro denotes
    cases denotes with
    | blank => rfl
    | absolute _ isNumber => exact absurd isNumber.exists_head (by simp)
  · rintro rfl
    exact .blank

theorem denotes_other (notPlus : ∀ digits, cs ≠ '+' :: digits)
    (notMinus : ∀ digits, cs ≠ '-' :: digits) (notMarker : ∀ rest, cs ≠ 'o' :: rest)
    (notBlank : cs ≠ []) : Denotes cs place ↔
      ∃ address : UInt64, HexText cs address.toNat ∧ place = .absolute address := by
  constructor
  · intro denotes
    cases denotes with
    | blank => exact absurd rfl notBlank
    | marker => exact absurd rfl (notMarker _)
    | above => exact absurd rfl (notPlus _)
    | below => exact absurd rfl (notMinus _)
    | absolute _ isNumber => exact ⟨_, isNumber, rfl⟩
  · rintro ⟨address, isNumber, rfl⟩
    refine .absolute (fun signed => ?_) isNumber
    obtain ⟨digits, isSigned⟩ := List.head?_eq_some_iff.mp signed
    exact notPlus digits isSigned

theorem Denotes.head?_relative {distance : Int} (denotes : Denotes cs (.relative distance)) :
    cs.head? = some '+' ∨ cs.head? = some '-' := by
  cases denotes <;> simp

theorem Denotes.head?_nowhere (denotes : Denotes cs .nowhere) :
    cs.head? = none ∨ cs.head? = some 'o' := by
  cases denotes <;> simp

/-! ## One frame after the other -/

@[simp] theorem ofInt_toNat (word : UInt64) : UInt64.ofInt word.toNat = word := by
  have fits : (word.toNat : Int) % 2 ^ 64 = word.toNat :=
    Int.emod_eq_of_lt (by omega) (by exact_mod_cast word.toNat_lt)
  rw [UInt64.ofInt, fits, Int.toNat_natCast, UInt64.ofNat_toNat]

@[simp] theorem ofInt_zero : UInt64.ofInt 0 = 0 :=
  rfl

theorem visible_of_cons {c : Char} (last : ∀ d ∈ (c :: cs).getLast?, Text.isBlank d = false) :
    ∀ d ∈ cs.getLast?, Text.isBlank d = false := by
  intro d isLast
  refine last d ?_
  rw [List.getLast?_cons, Option.mem_def.mp isLast]
  rfl

/-- A frame moves the base by its distance before its own address is told. -/
theorem addresses_cons_eq_ok {previous : UInt64} {frame : String} {frames : List String}
    {stack : List UInt64} : addresses previous (frame :: frames) = .ok stack ↔
      ∃ place rest, Denotes (Text.trim frame.toList) place ∧
        addresses (previous + .ofInt place.distance) frames = .ok rest ∧
        stack = (place.address? (previous + .ofInt place.distance)).toList ++ rest := by
  have last : ∀ c ∈ (Text.trim frame.toList).getLast?, Text.isBlank c = false := Text.getLast?_trim
  rw [addresses]
  generalize Text.trim frame.toList = cs at last
  split
  · simp [Outcome.bind_eq_ok, readHex_eq_ok (visible_of_cons last), denotes_plus, pure,
      Except.pure, @eq_comm _ stack]
  · simp [Outcome.bind_eq_ok, readHex_eq_ok (visible_of_cons last), denotes_minus, pure,
      Except.pure, UInt64.sub_eq_add_neg, @eq_comm _ stack]
  · simp [denotes_nil]
  · simp [denotes_marker]
  · rename_i notPlus notMinus notBlank notMarker
    simp [denotes_other notPlus notMinus notMarker notBlank, Outcome.bind_eq_ok,
      readHex_eq_ok last, pure, Except.pure, @eq_comm _ stack]

/-! ## Whole stacks -/

variable {pc : UInt64} {frames : List String} {stack : List UInt64} {places : List FramePlace}

theorem baseAfter_cons : baseAfter pc (place :: places) =
    baseAfter (pc + .ofInt place.distance) places := by
  simp only [baseAfter, List.map_cons, List.sum_cons, UInt64.ofInt_add, ofInt_toNat,
    UInt64.add_assoc]

theorem resolved_cons : resolved pc (place :: places) =
    (place.address? (pc + .ofInt place.distance)).toList ++
      resolved (pc + .ofInt place.distance) places := by
  have here : baseAfter pc [place] = pc + .ofInt place.distance := by
    simp [baseAfter]
  have behind (index : Nat) : ((place :: places)[index + 1]?.bind
      (·.address? (baseAfter pc ((place :: places).take (index + 1 + 1))))) =
        places[index]?.bind (·.address?
          (baseAfter (pc + .ofInt place.distance) (places.take (index + 1)))) := by
    rw [List.getElem?_cons_succ, List.take_succ_cons, baseAfter_cons]
  simp only [resolved, List.length_cons, List.range_succ_eq_map, List.filterMap_cons,
    List.filterMap_map, Function.comp_def, Nat.succ_eq_add_one, behind]
  cases place <;> simp [here]

/-- The addresses of a stack are those of its places. -/
theorem addresses_eq_ok : addresses pc frames = .ok stack ↔
    ∃ places, List.Forall₂ (fun frame => Denotes (Text.trim frame.toList)) frames places ∧
      stack = resolved pc places := by
  induction frames generalizing pc stack with
  | nil => simp [addresses, resolved, eq_comm]
  | cons frame frames inductionHypothesis =>
    simp only [addresses_cons_eq_ok, inductionHypothesis, List.forall₂_cons_left_iff]
    constructor
    · rintro ⟨place, _, denotes, ⟨places, others, rfl⟩, rfl⟩
      exact ⟨place :: places, ⟨place, places, denotes, others, rfl⟩, resolved_cons.symm⟩
    · rintro ⟨_, ⟨place, places, denotes, others, rfl⟩, rfl⟩
      exact ⟨place, _, denotes, ⟨places, others, rfl⟩, resolved_cons⟩

/-- Frames are accepted whatever stands around them. -/
theorem exists_addresses_iff : (∃ stack, addresses pc frames = .ok stack) ↔
    ∀ frame ∈ frames, ∃ place, Denotes (Text.trim frame.toList) place := by
  induction frames generalizing pc with
  | nil => simp [addresses]
  | cons frame frames inductionHypothesis =>
    rw [List.forall_mem_cons]
    simp only [addresses_cons_eq_ok]
    constructor
    · rintro ⟨_, place, rest, denotes, others, -⟩
      exact ⟨⟨place, denotes⟩, inductionHypothesis.mp ⟨rest, others⟩⟩
    · rintro ⟨⟨place, denotes⟩, others⟩
      obtain ⟨rest, accepted⟩ := inductionHypothesis.mpr others
      exact ⟨_, place, rest, denotes, accepted, rfl⟩

theorem Denotes.stands_eq {frame : String} (denotes : Denotes (Text.trim frame.toList) place)
    (base : UInt64) : stands frame = (place.address? base).isSome := by
  unfold stands
  cases place with
  | absolute address =>
    obtain ⟨c, isFirst, isDigit⟩ := denotes.exists_digit
    have notMarker : c ≠ 'o' := by
      rintro rfl
      exact isDigit (by decide)
    simp [isFirst, notMarker]
  | relative distance => rcases denotes.head?_relative with isFirst | isFirst <;> simp [isFirst]
  | nowhere => rcases denotes.head?_nowhere with isFirst | isFirst <;> simp [isFirst]

theorem Denotes.isRelative_iff {frame : String}
    (denotes : Denotes (Text.trim frame.toList) place) :
    isRelative frame = true ↔ ∃ distance, place = .relative distance := by
  unfold isRelative
  cases place with
  | absolute address =>
    obtain ⟨c, isFirst, isDigit⟩ := denotes.exists_digit
    have unsigned : c ≠ '+' ∧ c ≠ '-' := by
      constructor
      · rintro rfl
        exact isDigit Number.digitValue?_plus
      · rintro rfl
        exact isDigit Number.digitValue?_minus
    simp [isFirst, unsigned]
  | relative distance => rcases denotes.head?_relative with isFirst | isFirst <;> simp [isFirst]
  | nowhere => rcases denotes.head?_nowhere with isFirst | isFirst <;> simp [isFirst]

theorem length_of_addresses (accepted : addresses pc frames = .ok stack) :
    stack.length = (frames.filter stands).length := by
  induction frames generalizing pc stack with
  | nil => simp_all [addresses]
  | cons frame frames inductionHypothesis =>
    obtain ⟨place, rest, denotes, others, rfl⟩ := addresses_cons_eq_ok.mp accepted
    rw [List.length_append, inductionHypothesis others, List.filter_cons,
      denotes.stands_eq (pc + .ofInt place.distance)]
    cases place.address? (pc + .ofInt place.distance) <;> simp [Nat.add_comm]

/-- The relative frames have the addresses that they have on their own. -/
theorem relativeAddresses_eq (accepted : addresses pc frames = .ok stack) :
    ∃ own, addresses pc (frames.filter isRelative) = .ok own ∧
      relativeAddresses frames stack = (frames.filter isRelative).zip own := by
  induction frames generalizing pc stack with
  | nil => simp_all [addresses, relativeAddresses]
  | cons frame frames inductionHypothesis =>
    obtain ⟨place, rest, denotes, others, rfl⟩ := addresses_cons_eq_ok.mp accepted
    obtain ⟨own, alone, same⟩ := inductionHypothesis others
    have standing := denotes.stands_eq (pc + .ofInt place.distance)
    have relative := denotes.isRelative_iff
    unfold relativeAddresses at same ⊢
    cases place with
    | absolute address =>
      refine ⟨own, ?_⟩
      simp_all
    | relative distance =>
      have here := addresses_cons_eq_ok.mpr ⟨_, own, denotes, alone, rfl⟩
      refine ⟨(pc + .ofInt distance) :: own, ?_⟩
      simp_all
    | nowhere =>
      refine ⟨own, ?_⟩
      simp_all

/-- What a list of frames is resolved to. -/
structure Resolves (pc : UInt64) (frames : List String) (stack : List UInt64) : Prop where
  /-- Every frame stands for a place, and the addresses are those of the places in order. -/
  places : ∃ places, List.Forall₂ (fun frame => Denotes (Text.trim frame.toList)) frames places ∧
    stack = resolved pc places
  /-- The addresses are as many as the frames that are neither blank nor markers. -/
  counted : stack.length = (frames.filter stands).length
  /-- Other frames with the same relative ones among them give these the same addresses. -/
  relative : ∀ others otherStack, addresses pc others = .ok otherStack →
    others.filter isRelative = frames.filter isRelative →
      relativeAddresses others otherStack = relativeAddresses frames stack
  /-- Frames can be left out, and any that stand for something can be put between them. -/
  edited : ∀ others, (∀ frame ∈ others, frame ∈ frames ∨
    ∃ place, Denotes (Text.trim frame.toList) place) →
      ∃ otherStack, addresses pc others = .ok otherStack

/-- Frames that are accepted are resolved in order, the relative ones by the distances up to
them and by nothing else. -/
theorem stack_frames_resolved (accepted : addresses pc frames = .ok stack) :
    Resolves pc frames stack where
  places := addresses_eq_ok.mp accepted
  counted := length_of_addresses accepted
  relative others otherStack otherAccepted sameRelative := by
    obtain ⟨own, alone, same⟩ := relativeAddresses_eq accepted
    obtain ⟨otherOwn, otherAlone, otherSame⟩ := relativeAddresses_eq otherAccepted
    obtain rfl : otherOwn = own :=
      Except.ok.inj (otherAlone.symm.trans (sameRelative ▸ alone))
    rw [same, otherSame, sameRelative]
  edited others known := exists_addresses_iff.mpr fun frame among =>
    (known frame among).elim (exists_addresses_iff.mp ⟨stack, accepted⟩ frame) id

/-- The distances go on counting behind absolute frames and markers. -/
theorem stack_frames_resolved_mixed :
    let frames := ["0x2000", "+10", "-8", "overflow", "3000", " ", "+0x4"]
    let stack := [0x2000, 0x1010, 0x1008, 0x3000, 0x100c]
    addresses 0x1000 frames = .ok stack ∧ Resolves 0x1000 frames stack :=
  ⟨rfl, stack_frames_resolved rfl⟩

end JitTrace.StackText
