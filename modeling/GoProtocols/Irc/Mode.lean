import GoProtocols.Go.Map
import GoProtocols.Go.Unicode

/-!
# Modes

Mode changes (`irc/irc/mode.go`) and the modes of a channel or user (`irc/server/mode/set.go`). A
`nil` argument list and an empty one are the same, and an argument is empty where the source has
none.
-/

namespace Irc

open Go

/-! ## Mode strings -/

structure ModeChange where
  add : Bool
  mode : Rune
  arg : Bytes := []
  deriving DecidableEq

def modeNeedsArg (m : Rune) (add : Bool) : Bool :=
  if containsRune (lit "oOhvbeIqak") m then true
  else if m = rune 'l' then add
  else false

/-- The loop of `ParseModeString`; `args` are the arguments not yet taken. -/
def parseModes (add : Bool) (args : List Bytes) : List Rune → List ModeChange
  | [] => []
  | ch :: modes =>
    if ch = rune '+' then parseModes true args modes
    else if ch = rune '-' then parseModes false args modes
    else
      match args with
      | arg :: rest =>
        if modeNeedsArg ch add then ⟨add, ch, arg⟩ :: parseModes add rest modes
        else ⟨add, ch, []⟩ :: parseModes add args modes
      | [] => ⟨add, ch, []⟩ :: parseModes add [] modes

/-- `ParseModeString`. -/
def parseModeString (modes : Bytes) (args : List Bytes) : List ModeChange :=
  parseModes true args (runes modes)

def signOf (add : Bool) : Bytes := if add then lit "+" else lit "-"

/-- The loop of `FormatModeChanges`; `add` is the direction of the last sign written. -/
def formatModes (add : Bool) : List ModeChange → Bytes
  | [] => []
  | mc :: changes =>
    (if mc.add ≠ add then signOf mc.add else []) ++ encodeRune mc.mode ++ formatModes mc.add changes

/-- `FormatModeChanges`. -/
def formatModeChanges (changes : List ModeChange) : Bytes × List Bytes :=
  match changes with
  | [] => ([], [])
  | mc :: _ =>
    (signOf mc.add ++ formatModes mc.add changes, (changes.map ModeChange.arg).filter (· ≠ []))

/-! ## Mode sets -/

/-- `mode.Set`. -/
structure ModeSet where
  flags : Map Rune Bool := ∅
  args : Map Rune Bytes := ∅
  lists : Map Rune (List Bytes) := ∅

variable (s : ModeSet) (m : Rune)

namespace ModeSet

/-- `Set.Has`. -/
def has : Bool := (s.flags.lookup m).getD false

/-- `Set.Arg`. -/
def arg : Option Bytes := s.args.lookup m

/-- `Set.List`. -/
def list : List Bytes := (s.lists.lookup m).getD []

/-- `Set.String`, with the flags and arguments in the order in which their maps are visited. -/
def string (flags : List (Sigma fun _ : Rune => Bool)) (args : List (Sigma fun _ : Rune => Bytes)) :
    Bytes :=
  lit "+" ++ flags.flatMap (fun f => encodeRune f.1) ++ args.flatMap (fun a => encodeRune a.1) ++
    if args = [] then [] else lit " " ++ join (args.map Sigma.snd) (lit " ")

end ModeSet

/-- How a mode takes parameters. -/
inductive ModeType
  | flag
  | argAlways
  | argSet
  | argUnset
  | list
  | unknown
  deriving DecidableEq

/-- `ModeValidator`; `validateArg` gives the canonical argument. -/
structure ModeValidator where
  type : Rune → ModeType
  validateArg : Rune → Bool → Bytes → Option Bytes

namespace ModeSet

/-- One round of `Set.Apply`: the new set, and the change if it was applied. -/
def applyOne (v : ModeValidator) (s : ModeSet) (mc : ModeChange) : ModeSet × Option ModeChange :=
  match v.type mc.mode with
  | .flag =>
    if mc.add then
      if s.has mc.mode then (s, none)
      else ({ s with flags := s.flags.insert mc.mode true }, some mc)
    else if s.has mc.mode then ({ s with flags := s.flags.erase mc.mode }, some mc)
    else (s, none)
  | .argAlways | .argSet =>
    if mc.add then
      match v.validateArg mc.mode true mc.arg with
      | none => (s, none)
      | some canonical =>
        ({ s with args := s.args.insert mc.mode canonical }, some ⟨true, mc.mode, canonical⟩)
    else if (s.args.lookup mc.mode).isSome then
      ({ s with args := s.args.erase mc.mode }, some mc)
    else (s, none)
  | .list =>
    if mc.add then
      match v.validateArg mc.mode true mc.arg with
      | none => (s, none)
      | some canonical =>
        if canonical ∈ s.list mc.mode then (s, none)
        else
          ({ s with lists := s.lists.insert mc.mode (s.list mc.mode ++ [canonical]) },
            some ⟨true, mc.mode, canonical⟩)
    else if mc.arg ∈ s.list mc.mode then
      ({ s with lists := s.lists.insert mc.mode ((s.list mc.mode).erase mc.arg) }, some mc)
    else (s, none)
  | .argUnset | .unknown => (s, none)

/-- `Set.Apply`: the new set, and the changes that were applied. -/
def apply (v : ModeValidator) (s : ModeSet) : List ModeChange → ModeSet × List ModeChange
  | [] => (s, [])
  | mc :: changes =>
    let (s, applied) := s.applyOne v mc
    let (s, rest) := s.apply v changes
    (s, applied.toList ++ rest)

end ModeSet

/-! ## Validators -/

def channelValidator : ModeValidator where
  type m :=
    if containsRune (lit "imnsptrzcCSGNufjQKLPOART") m then .flag
    else if m = rune 'k' then .argSet
    else if m = rune 'l' then .argSet
    else if containsRune (lit "ohvaq") m then .argAlways
    else if containsRune (lit "beI") m then .list
    else .unknown
  validateArg _ _ arg := some arg

def userValidator : ModeValidator where
  type m := if containsRune (lit "iowrxzWgB") m then .flag else .unknown
  validateArg _ _ arg := some arg

end Irc
