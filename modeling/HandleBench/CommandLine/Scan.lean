/-!
# Scanning arguments

The words of a command line are flags, options with a value, operands, and at most one command,
which takes over the words behind it. Words are looked at one by one, and the first one that does
not fit ends the scan, so a request for help counts only in front of the first mistake.

An option has its value behind an equals sign or in the next word, which must not look like an
option itself; a single dash does not. Flags and options are given once. Behind a double dash every
word is an operand.

A value in a word of its own is looked at only when the scan goes on. A command that stands right
behind it comes first, with all of its words, so such a value does not keep the command from
helping.
-/

namespace HandleBench.CommandLine

/-- The words that fit on a command line. -/
structure Grammar where
  /-- The flags, by name. -/
  flags : List String
  /-- The options, by name, each with the values that it takes. -/
  options : List (String × (String → Bool))
  /-- The operands in order, each with the values that it takes. -/
  operands : List (String → Bool)
  /-- The commands, by name. -/
  commands : List String

/-- What has been found on a command line. -/
structure Found where
  /-- The flags and options with their values, a flag with an empty one. -/
  options : List (String × String)
  /-- The operands. -/
  operands : List String
  deriving DecidableEq, Repr

/-- The outcome of a scan. -/
inductive Scan where
  /-- Help was asked for. -/
  | help
  /-- A word does not fit. -/
  | misfit
  /-- All words fit. -/
  | words (found : Found)
  /-- A command was found, with words behind it. Nothing has been found in front of it if the value
  right in front does not fit. -/
  | command (found : Option Found) (name : String) (rest : List String)
  deriving DecidableEq, Repr

/-- Nothing found yet. -/
def Found.nothing : Found := ⟨[], []⟩

/-- The name of a long option and the value behind its equals sign. -/
def splitOption (chars : List Char) : String × Option String :=
  let name := String.ofList (chars.takeWhile (· != '='))
  match chars.dropWhile (· != '=') with
  | [] => (name, none)
  | _ :: value => (name, some (String.ofList value))

/-- The word can be the value of an option that stands before it. -/
def isValue (word : String) : Bool :=
  match word.toList with
  | '-' :: _ :: _ => false
  | _ => true

/-- What has been found with one option or flag more, if it has not been given before. -/
def Found.addOption? (found : Found) (name value : String) : Option Found :=
  if (found.options.lookup name).isSome then none
  else some { found with options := found.options ++ [(name, value)] }

/-- What has been found with one operand more, if there is a place for it. -/
def Found.addOperand? (g : Grammar) (found : Found) (word : String) : Option Found :=
  match g.operands[found.operands.length]? with
  | none => none
  | some accepts =>
    if accepts word then some { found with operands := found.operands ++ [word] } else none

/-- The words behind a double dash. -/
def scanOperands (g : Grammar) (found : Found) : List String → Scan
  | [] => .words found
  | word :: rest =>
    match found.addOperand? g word with
    | none => .misfit
    | some found => scanOperands g found rest

/-- A scan that goes on with what has been found, if that fits. -/
def goOn (found : Option Found) (next : Found → Scan) : Scan :=
  match found with
  | none => .misfit
  | some found => next found

/-- Scans words behind what has been found, which is nothing if the value right in front of them
does not fit. -/
def scan (g : Grammar) (found : Option Found) : List String → Scan
  | [] => goOn found .words
  | word :: rest =>
    if g.commands.contains word then .command found word rest
    else
      goOn found fun found =>
        match word.toList with
        | ['-', '-'] => scanOperands g found rest
        | '-' :: '-' :: chars =>
          match splitOption chars with
          | ("help", none) => .help
          | (name, value) =>
            if g.flags.contains name then
              if value.isSome then .misfit
              else goOn (found.addOption? name "") fun found => scan g found rest
            else
              match g.options.lookup name, value, rest with
              | none, _, _ => .misfit
              | some accepts, some value, rest =>
                if accepts value then
                  goOn (found.addOption? name value) fun found => scan g found rest
                else .misfit
              | some _, none, [] => .misfit
              | some accepts, none, value :: rest =>
                if isValue value then
                  scan g (if accepts value then found.addOption? name value else none) rest
                else .misfit
        | '-' :: 'h' :: _ => .help
        | '-' :: _ :: _ => .misfit
        | _ => goOn (found.addOperand? g word) fun found => scan g found rest

end HandleBench.CommandLine
