import StackWords.Session
import StackWords.Text.Fields

/-! # Options of the command line

Arguments are read as a sequence of requests, one for every option or file, and
the requests are collected into options. The value of an option is taken as it
stands, even if it looks like an option.
-/
namespace StackWords.CommandLine

inductive Refusal where
  | missingValue (option : String)
  | unknownOption (argument : String)
  | invalidAssignment (text : String)
  | invalidFeatures (message : String)
deriving DecidableEq

def Refusal.message : Refusal → String
  | .missingValue option => option ++ " requires a value"
  | .unknownOption argument => "unknown option: " ++ argument
  | .invalidAssignment text => "invalid assignment '" ++ text ++ "', expected key=value"
  | .invalidFeatures message => message

inductive Request where
  | help
  | version
  | batch
  | steps
  | types
  | features (level : Features)
  | program (text : String)
  | assign (key value : String)
  | file (name : String)
deriving DecidableEq

/-- An option that takes the argument behind it as its value. -/
inductive Valued where
  | features
  | program
  | assign
deriving DecidableEq

def Valued.read (value : String) : Valued → Except Refusal Request
  | .features => ((Features.read value).map .features).mapError (.invalidFeatures ·.message)
  | .program => .ok (.program value)
  | .assign =>
    match Text.cut? (· == '=') value.toList with
    | some (key, value) => .ok (.assign (String.ofList key) (String.ofList value))
    | none => .error (.invalidAssignment value)

def readArgument (argument : String) : Except Refusal (Request ⊕ Valued) :=
  match argument with
  | "-h" | "--help" => .ok (.inl .help)
  | "-V" | "--version" => .ok (.inl .version)
  | "-b" | "--batch" => .ok (.inl .batch)
  | "--unstable" => .ok (.inl (.features .unstable))
  | "--debug" => .ok (.inl .steps)
  | "--show-types" => .ok (.inl .types)
  | "--features" => .ok (.inr .features)
  | "-e" | "--eval" => .ok (.inr .program)
  | "--set" => .ok (.inr .assign)
  | _ =>
    match argument.toList with
    | '-' :: _ :: _ => .error (.unknownOption argument)
    | _ => .ok (.inl (.file argument))

def readRequests : List String → Except Refusal (List Request)
  | [] => .ok []
  | argument :: rest =>
    match readArgument argument with
    | .error refusal => .error refusal
    | .ok (.inl request) => (readRequests rest).map (request :: ·)
    | .ok (.inr valued) =>
      match rest with
      | [] => .error (.missingValue argument)
      | value :: rest =>
        match valued.read value with
        | .error refusal => .error refusal
        | .ok request => (readRequests rest).map (request :: ·)

structure Options where
  files : List String := []
  programs : List String := []
  batch : Bool := false
  showHelp : Bool := false
  showVersion : Bool := false
  features : Features := .stable
  showSteps : Bool := false
  showTypes : Bool := false
  vars : List (String × String) := []
deriving DecidableEq

namespace Options

/-- Adds a request. Of several feature levels the last one counts. -/
def add (o : Options) : Request → Options
  | .help => { o with showHelp := true }
  | .version => { o with showVersion := true }
  | .batch => { o with batch := true }
  | .steps => { o with showSteps := true }
  | .types => { o with showTypes := true }
  | .features level => { o with features := level }
  | .program text => { o with programs := o.programs ++ [text] }
  | .assign key value => { o with vars := o.vars ++ [(key, value)] }
  | .file name => { o with files := o.files ++ [name] }

def read (arguments : List String) : Except Refusal Options :=
  (readRequests arguments).map (·.foldl add {})

def isBatch (o : Options) : Bool := o.batch || !o.programs.isEmpty

/-- The settings that options describe. Files silence the banner. -/
def settings (o : Options) : Settings where
  features := o.features
  showTypes := o.showTypes
  showSteps := o.showSteps
  banner := o.files.isEmpty
  vars := .ofList (o.vars.map fun (key, value) => (key, .literal value))

end Options

end StackWords.CommandLine
