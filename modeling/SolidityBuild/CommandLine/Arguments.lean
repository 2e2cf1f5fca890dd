import SolidityBuild.Text.Digits
import SolidityBuild.Text.Quoted

/-!
Reading the arguments of a command. Options may stand anywhere, in full or as a beginning that belongs
to one option only, with their value in the next argument or behind an equals sign; two dashes end the
options. What looks like an option and is none, and what is left over, is not recognized.
-/

set_option autoImplicit false

namespace SolidityBuild

/-- An option of a command. -/
structure OptionSpec where
  names : List Text
  takesValue : Bool
  /-- The values to choose from; none if every value will do. -/
  choices : List Text := []
deriving DecidableEq, Repr

/-- How an option is called in messages. -/
def OptionSpec.label (o : OptionSpec) : Text := Text.join "/" o.names

/-- What is wrong with arguments. -/
inductive UsageFault where
  | ambiguous (argument : Text) (names : List Text)
  | missingValue (label : Text)
  | unwantedValue (label value : Text)
  | invalidChoice (label value : Text) (choices : List Text)
  | unrecognized (arguments : List Text)
deriving DecidableEq, Repr

/-- The message about arguments. -/
def UsageFault.message : UsageFault → Text
  | ambiguous argument names =>
    "ambiguous option: " ++ argument ++ " could match " ++ Text.join ", " names
  | missingValue label => "argument " ++ label ++ ": expected one argument"
  | unwantedValue label value =>
    "argument " ++ label ++ ": ignored explicit argument " ++ value.quoted
  | invalidChoice label value choices =>
    "argument " ++ label ++ ": invalid choice: " ++ value.quoted ++ " (choose from " ++
      Text.join ", " (choices.map Text.quoted) ++ ")"
  | unrecognized arguments => "unrecognized arguments: " ++ Text.join " " arguments

namespace Arguments

/-- The dash that options begin with. -/
def dash : CodePoint := 45

/-- Two dashes. -/
def dashes : Text := [dash, dash]

/-- The option that asks for help. -/
def help : OptionSpec := ⟨["-h", "--help"], false, []⟩

/-- A value that is written in the argument of its option. -/
structure Attached where
  /-- Whether an equals sign stands in front of it. -/
  separated : Bool
  value : Text

/-- How an argument reads. -/
inductive Reading where
  | word
  | dashes
  | option (spec : OptionSpec) (name : Text) (attached : Option Attached)
  | unknownOption

/-- The options with each of their names. -/
def namesOf (specs : List OptionSpec) : List (Text × OptionSpec) :=
  specs.flatMap fun spec => spec.names.map fun name => (name, spec)

/-- What stands before and after the first equals sign. -/
def splitValue (argument : Text) : Text × Option Attached :=
  match Text.splitAt? "=" argument with
  | some (name, value) => (name, some ⟨true, value⟩)
  | none => (argument, none)

/-- Whether an argument is a negative number: a dash, digits and perhaps a point with digits behind. -/
def isNegativeNumber (argument : Text) : Bool :=
  match argument with
  | d :: number =>
    let number := if number.getLast? = some 10 then number.dropLast else number
    let whole := number.takeWhile CodePoint.isDecimal
    match number.drop whole.length with
    | [] => d = dash && !whole.isEmpty
    | point :: decimals =>
      d = dash && point.val = 46 && !decimals.isEmpty && decimals.all CodePoint.isDecimal
  | [] => false

/-- The options that an argument may stand for in short. -/
def candidates (specs : List OptionSpec) (argument : Text) : List Reading × List Text :=
  let found : List (Text × Reading) :=
    if argument.take 2 = dashes then
      let (lead, attached) := splitValue argument
      (namesOf specs).filterMap fun (name, spec) =>
        if lead.isPrefixOf name then some (name, .option spec name attached) else none
    else
      (namesOf specs).filterMap fun (name, spec) =>
        if name = argument.take 2 then some (name, .option spec name (some ⟨false, argument.drop 2⟩))
        else if argument.isPrefixOf name then some (name, .option spec name none)
        else none
  (found.map (·.2), found.map (·.1))

/-- How an argument in front of two dashes reads. -/
def read (specs : List OptionSpec) (argument : Text) : Except UsageFault Reading :=
  if argument.head? ≠ some dash ∨ argument = [dash] then .ok .word
  else if argument = dashes then .ok .dashes
  else match (namesOf specs).lookup argument with
    | some spec => .ok (.option spec argument none)
    | none =>
      let (name, attached) := splitValue argument
      match attached, (namesOf specs).lookup name with
      | some attached, some spec => .ok (.option spec name (some attached))
      | _, _ =>
        match candidates specs argument with
        | ([reading], _) => .ok reading
        | ([], _) =>
          if isNegativeNumber argument ∨ argument.contains 32 then .ok .word else .ok .unknownOption
        | (_, names) => .error (.ambiguous argument names)

/-- How arguments read, in order; behind two dashes there are words only. -/
def readAll (specs : List OptionSpec) : List Text → Except UsageFault (List (Text × Reading))
  | [] => .ok []
  | argument :: rest => do
    match ← read specs argument with
    | .dashes => pure ((argument, .dashes) :: rest.map fun a => (a, .word))
    | reading => do
      let rest ← readAll specs rest
      pure ((argument, reading) :: rest)

/-- Why reading stops before its end. -/
inductive Stop where
  | helpWanted
  | fault (fault : UsageFault)

/-- What was read: options with their values, the word that the command takes, and what is left over. -/
structure Read where
  options : List (OptionSpec × Text) := []
  word : Option Text := none
  /-- Whether the place of the word is taken, be it by two dashes alone. -/
  placed : Bool := false
  leftOver : List Text := []

/-- An option with its value is met. -/
def take (r : Read) (spec : OptionSpec) (value : Text) : Except Stop Read :=
  if spec = help then .error .helpWanted
  else if spec.choices ≠ [] ∧ !spec.choices.contains value then
    .error (.fault (.invalidChoice spec.label value spec.choices))
  else .ok { r with options := r.options ++ [(spec, value)] }

/-- The letters behind a short option that takes no value: each must be that option again, up to a value
that it does not take. -/
def shortTail (specs : List OptionSpec) (spec : OptionSpec) (name : Text) :
    (fuel : Nat) → Attached → Except Stop Unit
  | 0, _ => .ok ()
  | fuel + 1, attached =>
    let unwanted : Except Stop Unit := .error (.fault (.unwantedValue spec.label attached.value))
    match attached.value with
    | [] => unwanted
    | letter :: rest =>
      if name.take 2 = dashes ∨ attached.separated ∨ letter = dash then unwanted
      else match (namesOf specs).lookup [dash, letter] with
        | none => .ok ()
        | some _ =>
          match rest with
          | [] => .ok ()
          | c :: value =>
            if c.val = 61 then shortTail specs spec name fuel ⟨true, value⟩
            else shortTail specs spec name fuel ⟨false, rest⟩

/-- The words at the front that fill the place of the word: at most one, and two dashes around it. The
result is the word, and how many arguments it took. -/
def placeWord : List (Text × Reading) → Option Text × Nat
  | (_, .dashes) :: (word, .word) :: _ => (some word, 2)
  | (_, .dashes) :: _ => (none, 1)
  | (word, .word) :: (_, .dashes) :: _ => (some word, 2)
  | (word, .word) :: _ => (some word, 1)
  | _ => (none, 0)

/-- Reads arguments one after the other. -/
def collect (specs : List OptionSpec) :
    (fuel : Nat) → Read → List (Text × Reading) → Except Stop Read
  | 0, r, _ => .ok r
  | _ + 1, r, [] => .ok r
  | fuel + 1, r, (argument, reading) :: rest =>
    match reading with
    | .unknownOption => collect specs fuel { r with leftOver := r.leftOver ++ [argument] } rest
    | .option spec name attached =>
      if spec.takesValue then
        match attached, rest with
        | some attached, _ => do
          let r ← take r spec attached.value
          collect specs fuel r rest
        | none, (value, .word) :: rest => do
          let r ← take r spec value
          collect specs fuel r rest
        | none, _ => .error (.fault (.missingValue spec.label))
      else do
        match attached with
        | some attached => shortTail specs spec name (attached.value.length + 1) attached
        | none => .ok ()
        let r ← take r spec []
        collect specs fuel r rest
    | _ =>
      if r.placed then collect specs fuel { r with leftOver := r.leftOver ++ [argument] } rest
      else
        let all := (argument, reading) :: rest
        let (word, count) := placeWord all
        collect specs fuel { r with word, placed := true } (all.drop count)

/-- Reads the arguments of a command with the given options and at most one word. -/
def parse (specs : List OptionSpec) (arguments : List Text) : Except Stop Read :=
  match readAll specs arguments with
  | .error fault => .error (.fault fault)
  | .ok readings => collect specs (arguments.length + 1) {} readings

/-- The last value of an option. -/
def Read.value? (r : Read) (spec : OptionSpec) : Option Text := r.options.reverse.lookup spec

end Arguments

end SolidityBuild
