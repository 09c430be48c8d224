import TunnelMesh.Text.Decimal

/-!
# Command lines

From the arguments of a program to what it is asked to do. Options stand before or after the
command and its operands: `--name value`, `--name=value`, `-n value`, `-nvalue` or `-n=value`, and
after `--` every argument is an operand. An argument that begins with a dash, the dash alone
excepted, is never the value of the option before it. Each option may be given once, the format
once on either side of the command and the name servers any number of times.

Arguments count from left to right: a flag that asks for help or the version is answered if all
that stands before it is in order, whatever follows. Only a value right before the name of the
command waits until the command has been read.
-/

namespace TunnelMesh.Command

/-- How results are printed. -/
inductive Format where
  | text
  | json
  deriving DecidableEq, Repr

/-- The options with values. -/
inductive Flag where
  | format
  | output
  | resolved
  | defaults
  | address
  | netmask
  | listenPort
  | dns
  | mtu
  | table
  | keepalive
  deriving DecidableEq, Repr

/-- The long name of an option. -/
def Flag.long : Flag → String
  | .format => "format"
  | .output => "output"
  | .resolved => "resolved"
  | .defaults => "defaults"
  | .address => "address"
  | .netmask => "netmask"
  | .listenPort => "listen-port"
  | .dns => "dns"
  | .mtu => "mtu"
  | .table => "table"
  | .keepalive => "keepalive"

/-- The letter of an option. -/
def Flag.letter? : Flag → Option Char
  | .format => some 'f'
  | .output => some 'o'
  | _ => none

/-- The options that override the defaults of a mesh. -/
def defaultsFlags : List Flag :=
  [.defaults, .address, .netmask, .listenPort, .dns, .mtu, .table, .keepalive]

/-- The operands that commands take. -/
inductive Operand where
  /-- The path of a file. -/
  | path
  /-- Any text. -/
  | text
  deriving DecidableEq, Repr

/-- The commands. -/
inductive Verb where
  | generate
  | «show»
  | keygen
  | pubkey
  deriving DecidableEq, Repr

/-- The command of a name. -/
def Verb.ofName? : String → Option Verb
  | "generate" => some .generate
  | "show" => some .show
  | "keygen" => some .keygen
  | "pubkey" => some .pubkey
  | _ => none

/-- The options of a command. -/
def Verb.flags : Verb → List Flag
  | .generate => .format :: .output :: .resolved :: defaultsFlags
  | .show => .format :: defaultsFlags
  | .keygen => [.format]
  | .pubkey => [.format]

/-- The operands of a command, in order. -/
def Verb.operands : Verb → List Operand
  | .generate => [.path]
  | .show => [.path, .text]
  | .keygen => []
  | .pubkey => [.text]

/-- Defaults as options give them: a file, and settings that replace those of the file. -/
structure DefaultsOptions where
  file : Option String := none
  address : Option String := none
  netmask : Option String := none
  listenPort : Option UInt16 := none
  dns : List String := []
  mtu : Option UInt32 := none
  table : Option String := none
  keepalive : Option UInt16 := none
  deriving DecidableEq, Repr, Inhabited

/-- What `generate` is asked for. -/
structure GenerateArgs where
  topology : String
  output : String := "."
  resolved : Option String := none
  defaults : DefaultsOptions := {}
  deriving DecidableEq, Repr

/-- What `show` is asked for. -/
structure ShowArgs where
  topology : String
  hostname : String
  defaults : DefaultsOptions := {}
  deriving DecidableEq, Repr

/-- What the program is asked to do. -/
inductive Action where
  | generate (args : GenerateArgs)
  | «show» (args : ShowArgs)
  | keygen
  | pubkey (privateKey : String)
  deriving DecidableEq, Repr

/-- A command line. -/
structure Invocation where
  format : Format
  action : Action
  deriving DecidableEq, Repr

/-- Why a command line is not carried out. -/
inductive Halt where
  /-- It asks for the version. -/
  | version
  /-- It asks for help. -/
  | help
  /-- It is not one of the program's. -/
  | usage
  deriving DecidableEq, Repr

/-! ## Splitting arguments -/

/-- The options and operands of a command, in order, up to the argument that stops the reading, if
one does. -/
structure Scan where
  options : List (Flag × String) := []
  operands : List String := []
  halt : Option Halt := none
  deriving DecidableEq, Repr, Inhabited

/-- The arguments of a command with an option before them. -/
def Scan.withOption (s : Scan) (f : Flag) (value : String) : Scan :=
  { s with options := (f, value) :: s.options }

/-- The arguments of a command with an operand before them. -/
def Scan.withOperand (s : Scan) (o : String) : Scan :=
  { s with operands := o :: s.operands }

/-- One argument. -/
inductive Item where
  /-- An option with its value. -/
  | option (f : Flag) (value : String)
  /-- An option whose value is the next argument. -/
  | pending (f : Flag)
  /-- The end of all options. -/
  | separator
  | operand (s : String)
  | halt (h : Halt)
  deriving DecidableEq, Repr

/-- An argument that begins with two dashes. -/
def readLong (flags : List Flag) (version : Bool) (cs : List Char) : Item :=
  let name := String.ofList (cs.takeWhile (· ≠ '='))
  match flags.find? (·.long == name), cs.dropWhile (· ≠ '=') with
  | some f, [] => .pending f
  | some f, _ :: value => .option f (String.ofList value)
  | none, [] =>
    if name = "help" then .halt .help
    else if name = "version" && version then .halt .version
    else .halt .usage
  | none, _ :: _ => .halt .usage

/-- An argument that begins with a dash and a letter. -/
def readShort (flags : List Flag) (version : Bool) (c : Char) (cs : List Char) : Item :=
  match flags.find? (·.letter? == some c), cs with
  | some f, [] => .pending f
  | some f, '=' :: value => .option f (String.ofList value)
  | some f, value => .option f (String.ofList value)
  | none, _ =>
    if c = 'h' then .halt .help
    else if c = 'V' && version then .halt .version
    else .halt .usage

/-- What an argument is, before the end of the options. -/
def readItem (flags : List Flag) (version : Bool) (arg : String) : Item :=
  match arg.toList with
  | ['-', '-'] => .separator
  | '-' :: '-' :: cs => readLong flags version cs
  | ['-'] => .operand arg
  | '-' :: c :: cs => readShort flags version c cs
  | _ => .operand arg

/-- The arguments of a command, the first of which may be the value of a pending option. -/
def scanCommand (flags : List Flag) : Option Flag → List String → Scan
  | none, [] => {}
  | some _, [] => { halt := some .usage }
  | pending, arg :: rest =>
    match pending, readItem flags false arg with
    | some f, .operand value => (scanCommand flags none rest).withOption f value
    | some _, _ => { halt := some .usage }
    | none, .operand o => (scanCommand flags none rest).withOperand o
    | none, .option f value => (scanCommand flags none rest).withOption f value
    | none, .pending f => scanCommand flags (some f) rest
    | none, .separator => { operands := rest }
    | none, .halt h => { halt := some h }

/-! ## Values -/

/-- The values that an option was given. -/
def valuesOf (f : Flag) (options : List (Flag × String)) : List String :=
  options.filterMap fun (g, v) => if g = f then some v else none

/-- The value of an option that may be given once. -/
def single (f : Flag) (options : List (Flag × String)) : Except Halt (Option String) :=
  match valuesOf f options with
  | [] => .ok none
  | [v] => .ok (some v)
  | _ => .error .usage

/-- A path has at least one character. -/
def readPath (s : String) : Except Halt String :=
  if s = "" then .error .usage else .ok s

/-- A number below a bound. -/
def readNumber (bound : Nat) (s : String) : Except Halt Nat :=
  match Decimal.integer? s.toList with
  | some (.ofNat n) => if n < bound then .ok n else .error .usage
  | _ => .error .usage

/-- A format by its name. -/
def readFormat : String → Except Halt Format
  | "text" => .ok .text
  | "json" => .ok .json
  | _ => .error .usage

/-- The value of an option that may be given once, read. -/
def singleAs {α : Type} (f : Flag) (read : String → Except Halt α)
    (options : List (Flag × String)) : Except Halt (Option α) := do
  match ← single f options with
  | none => return none
  | some v => return some (← read v)

/-- The entries that commas separate. -/
def commaSeparated (s : String) : List String :=
  (s.toList.splitOn ',').map String.ofList

/-- The defaults that options give. -/
def readDefaults (options : List (Flag × String)) : Except Halt DefaultsOptions := do
  return {
    file := ← singleAs .defaults readPath options
    address := ← single .address options
    netmask := ← single .netmask options
    listenPort := (← singleAs .listenPort (readNumber UInt16.size) options).map UInt16.ofNat
    dns := (valuesOf .dns options).flatMap commaSeparated
    mtu := (← singleAs .mtu (readNumber UInt32.size) options).map UInt32.ofNat
    table := ← single .table options
    keepalive := (← singleAs .keepalive (readNumber UInt16.size) options).map UInt16.ofNat }

/-- The defaults with the file of the environment where no option names one. -/
def DefaultsOptions.inEnvironment (o : DefaultsOptions) (environment : Option String) :
    Except Halt DefaultsOptions :=
  match o.file, environment with
  | none, some f => do return { o with file := some (← readPath f) }
  | _, _ => .ok o

/-- The options of a command, read. -/
structure Options where
  format : Option Format
  output : Option String
  resolved : Option String
  defaults : DefaultsOptions
  deriving DecidableEq, Repr

/-- What options say. -/
def readOptions (options : List (Flag × String)) : Except Halt Options := do
  return {
    format := ← singleAs .format readFormat options
    output := ← singleAs .output readPath options
    resolved := ← singleAs .resolved readPath options
    defaults := ← readDefaults options }

/-- Operands are among the first that a command takes. -/
def checkOperands : List Operand → List String → Except Halt Unit
  | _, [] => .ok ()
  | [], _ :: _ => .error .usage
  | .path :: ks, s :: ss => do
    let _ ← readPath s
    checkOperands ks ss
  | .text :: ks, _ :: ss => checkOperands ks ss

/-! ## Commands -/

/-- What a command with options and operands asks for. -/
def readAction (environment : Option String) (v : Verb) (o : Options) (operands : List String) :
    Except Halt Action :=
  match v, operands with
  | .generate, [topology] => do
    return .generate {
      topology := topology
      output := o.output.getD "."
      resolved := o.resolved
      defaults := ← o.defaults.inEnvironment environment }
  | .show, [topology, hostname] => do
    return .show {
      topology := topology
      hostname := hostname
      defaults := ← o.defaults.inEnvironment environment }
  | .keygen, [] => .ok .keygen
  | .pubkey, [key] => .ok (.pubkey key)
  | _, _ => .error .usage

/-- The part of a command line after the name of its command. The format may be given on either
side of the name, and the one after it counts. -/
def readCommand (environment : Option String) (outer : Except Halt (Option Format)) (v : Verb)
    (rest : List String) : Except Halt Invocation := do
  let s := scanCommand v.flags none rest
  let options ← readOptions s.options
  checkOperands v.operands s.operands
  match s.halt with
  | some h => .error h
  | none =>
    let outer ← outer
    let action ← readAction environment v options s.operands
    return ⟨(options.format.or outer).getD .text, action⟩

/-- What follows the word `help`: nothing, or the name of what help is wanted for. -/
def isHelpTopic : List String → Bool
  | [] => true
  | [name] => name == "help" || (Verb.ofName? name).isSome
  | _ => false

/-- A command line, given the format options before the command that have been read so far. -/
def readLine (environment : Option String) :
    List (Flag × String) → Option Flag → List String → Except Halt Invocation
  | _, _, [] => .error .usage
  | options, pending, arg :: rest =>
    match pending, readItem [.format] true arg with
    | some f, .operand value => readLine environment (options ++ [(f, value)]) none rest
    | some _, _ => .error .usage
    | none, .option f value => do
      let _ ← singleAs .format readFormat (options ++ [(f, value)])
      readLine environment (options ++ [(f, value)]) none rest
    | none, .pending f => do
      let _ ← singleAs .format readFormat options
      readLine environment options (some f) rest
    | none, .separator => .error .usage
    | none, .halt h => do
      let _ ← singleAs .format readFormat options
      .error h
    | none, .operand name =>
      match Verb.ofName? name with
      | some v => readCommand environment (singleAs .format readFormat options) v rest
      | none => .error (if name = "help" ∧ isHelpTopic rest then .help else .usage)

/-- What a command line asks for. The environment may name a file of defaults. -/
def parse (environment : Option String) (args : List String) : Except Halt Invocation :=
  readLine environment [] none args

end TunnelMesh.Command
