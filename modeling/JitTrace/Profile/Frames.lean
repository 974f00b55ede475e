import JitTrace.Code.Map
import JitTrace.Record.Integer
import JitTrace.Text.Blank

/-!
# Stack frames

From the frames of a tick as the log writes them to addresses, and from an
address to the calls it stands for: an optimized piece of code may contain any
number of inlined calls. Which call stands in which is told by a table of the log.
Nothing keeps a table from having a call stand in itself, and such calls have no end.
-/

namespace JitTrace

namespace StackText

/-- Read an address that may lack its hexadecimal marker. -/
def readHex (cs : List Char) : Except Fault UInt64 :=
  match Number.hexMarked? cs with
  | some _ => Record.readAddress (String.ofList cs)
  | none => Record.readAddress (String.ofList ('0' :: 'x' :: cs))

/-- Read the frames of a tick. Frames with a sign are relative to the last such
frame, or to the program counter. Markers, which start with `o`, and blank frames
stand for no address. -/
def addresses (previous : UInt64) : List String → Except Fault (List UInt64)
  | [] => .ok []
  | frame :: frames => do
    match Text.trim frame.toList with
    | '+' :: delta =>
      let address := previous + (← readHex delta)
      return address :: (← addresses address frames)
    | '-' :: delta =>
      let address := previous - (← readHex delta)
      return address :: (← addresses address frames)
    | [] => addresses previous frames
    | 'o' :: _ => addresses previous frames
    | absolute =>
      let address ← readHex absolute
      return address :: (← addresses previous frames)

end StackText

/-- A call on a logical stack. -/
structure LogicalFrame where
  entry : CodeId
  label : String
  /-- The script that the offset refers to. -/
  scriptId : Option UInt32 := none
  scriptOffset : Option UInt64 := none
deriving DecidableEq, Repr, Inhabited

namespace CodeMap

/-- The frame of an inlined call, when the function at `address` is known. The
script is the function's own where that is known, and `scriptId` otherwise. -/
def inlinedFrame (map : CodeMap) (scriptId : UInt32) (scriptOffset : UInt64)
    (address? : Option UInt64) : Option LogicalFrame × CodeMap :=
  match address? with
  | none => (none, map)
  | some address =>
    match map.dynamicAt address with
    | (none, map) => (none, map)
    | (some function, map) =>
      let ownScript := (map.entry function).source.map (·.scriptId)
      (some
        { entry := function
          label := map.displayName function
          scriptId := some (ownScript.getD scriptId)
          scriptOffset := some scriptOffset }, map)

/-- The frames of the inlined calls from `inliningId` outwards, and the script
offset at which the outer function made the outermost of these calls. They are
absent where a call stands in itself, directly or not: following such calls has
no end. A chain that ends visits no entry of the inlining table twice, so it has
left the table after as many steps as the table is long. -/
def inlinedFrames (map : CodeMap) (source : SourceInfo) (steps : Nat) (scriptOffset : UInt64)
    (inliningId : Option Nat) : Option (List LogicalFrame × UInt64) × CodeMap :=
  match inliningId.bind (source.inlining[·]?), steps with
  | none, _ => (some ([], scriptOffset), map)
  | some _, 0 => (none, map)
  | some call, steps + 1 =>
    let (frame?, map) :=
      map.inlinedFrame source.scriptId scriptOffset source.inlinedFunctions[call.functionIndex]?
    let (outer?, map) := inlinedFrames map source steps call.scriptOffset call.parent
    (outer?.map fun (frames, outerOffset) => (frame?.toList ++ frames, outerOffset), map)

/-- The calls that a located address stands for, innermost first, unless there is
no end of them. The address a call returns to is looked up one byte earlier, where
the call itself is. -/
def expandFrame? (map : CodeMap) (located : Located) (isReturnAddress : Bool) :
    Option (List LogicalFrame) × CodeMap :=
  let physical : LogicalFrame :=
    { entry := located.id, label := map.displayName located.id }
  match (map.entry located.id).source with
  | none => (some [physical], map)
  | some source =>
    let codeOffset :=
      if isReturnAddress then Number.saturatingSub located.offset 1 else located.offset
    match source.positionAt? codeOffset with
    | none => (some [{ physical with scriptId := some source.scriptId }], map)
    | some position =>
      let (inlined?, map) :=
        map.inlinedFrames source source.inlining.size position.scriptOffset position.inliningId
      (inlined?.map fun (inlined, outerOffset) =>
        inlined ++
          [{ physical with
              scriptId := some source.scriptId
              scriptOffset := some outerOffset }], map)

/-- The calls that a located address stands for, where they are known to have an end. -/
def expandFrame (map : CodeMap) (located : Located) (isReturnAddress : Bool) :
    List LogicalFrame × CodeMap :=
  let (frames?, map) := map.expandFrame? located isReturnAddress
  (frames?.getD [], map)

end CodeMap

end JitTrace
