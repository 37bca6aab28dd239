import CommentLint.Given
import CommentLint.Number.Numeral
import CommentLint.Text.Quoted

/-
  Command lines of options and arguments.

  An option has a long name, which may be cut short while it
  stays unique, and perhaps a short one; flags of one letter
  may be written together.  A value follows its option as the
  next word or after `=`.  After `--` every word is an
  argument.

  Key definitions include:
    * `OptionSpec`
    * `Grammar`
    * `Usage`
    * `Grammar.classify`
    * `Grammar.parse`
-/

namespace CommentLint

namespace CommandLine

------------------------------------------------------------
-- Grammars
------------------------------------------------------------

/- What a flag does, or what kind of value an option takes. -/
inductive OptionKind where
| flag
| help
| version
| text
| integer
| choice (allowed : List String)
deriving DecidableEq, Repr

/- Whether an option takes a value. -/
def OptionKind.takesValue : OptionKind → Bool
  | .flag => false
  | .help => false
  | .version => false
  | _ => true

/- An option: its names and its kind. -/
structure OptionSpec where
  names : List String
  kind : OptionKind
deriving DecidableEq, Repr

/- The name by which an option's occurrences are kept. -/
def OptionSpec.key (o : OptionSpec) : String :=
  o.names.getLast?.getD ""

/- The names of an option as messages give them. -/
def OptionSpec.title (o : OptionSpec) : String :=
  String.intercalate "/" o.names

/- The arguments that are no options: one at most, or a command. -/
inductive Operand where
| none
| single
| command
deriving DecidableEq, Repr

/- What a command line may hold, and the program that it is for. -/
structure Grammar where
  program : String
  options : List OptionSpec
  operand : Operand
deriving DecidableEq, Repr

/- The flag that asks for help. -/
def helpOption : OptionSpec :=
  ⟨["-h", "--help"], .help⟩

------------------------------------------------------------
-- Ends of Parsing
------------------------------------------------------------

/- What is wrong with a command line. -/
inductive UsageError where
| ambiguous (word : String) (names : List String)
| missingValue (option : OptionSpec)
| unexpectedValue (option : OptionSpec) (value : String)
| badInteger (option : OptionSpec) (value : String)
| badChoice (title value : String) (allowed : List String)
| missingCommand
| unrecognized (words : List String)
deriving DecidableEq, Repr

namespace UsageError

/- A message about an argument. -/
def about
    (title message : String) : String :=
  "argument " ++ title ++ ": " ++ message

/- The message of an error. -/
def message : UsageError → String
  | .ambiguous word names =>
      "ambiguous option: " ++ word ++ " could match " ++
        String.intercalate ", " names
  | .missingValue o => about o.title "expected one argument"
  | .unexpectedValue o value =>
      about o.title
        ("ignored explicit argument " ++ quoted value)
  | .badInteger o value =>
      about o.title ("invalid int value: " ++ quoted value)
  | .badChoice title value allowed =>
      about title
        ("invalid choice: " ++ quoted value ++ " (choose from " ++
          String.intercalate ", " (allowed.map quoted) ++ ")")
  | .missingCommand =>
      "the following arguments are required: command"
  | .unrecognized words =>
      "unrecognized arguments: " ++ String.intercalate " " words

end UsageError

/- How parsing ends without a result. -/
inductive Stop where
| help (program : String)
| version
| usage (program : String) (error : UsageError)
deriving DecidableEq, Repr

------------------------------------------------------------
-- Words
------------------------------------------------------------

/- An option as a word names it, with the value in that word. -/
structure Mention where
  spec : OptionSpec
  name : String
  attached? : Option String
deriving DecidableEq, Repr

/- A word of a command line. -/
inductive Word where
| separator
| argument (text : String)
| unknown (text : String)
| option (text : String) (mention : Mention)
deriving DecidableEq, Repr

namespace Word

/- The text of a word. -/
def text : Word → String
  | .separator => "--"
  | .argument text => text
  | .unknown text => text
  | .option text _ => text

/- Whether a word looks like an option. -/
def isOption : Word → Bool
  | .unknown _ => true
  | .option _ _ => true
  | _ => false

end Word

------------------------------------------------------------
-- Recognising Words
------------------------------------------------------------

/- Whether a character is a digit of any script. -/
def isAnyDigit (c : Char) : Bool :=
  (digitValue? c).isSome

/- Whether a text is a negative number; a line feed may end it. -/
def isNegativeNumber (text : List Char) : Bool :=
  match text with
  | '-' :: body =>
      let body :=
        if body.getLast? = some '\n' then body.dropLast else body
      let whole := body.takeWhile isAnyDigit
      match body.dropWhile isAnyDigit with
      | [] => !whole.isEmpty
      | '.' :: fraction =>
          !fraction.isEmpty && fraction.all isAnyDigit
      | _ => false
  | _ => false

/- Split a text at its first `=`, if it has one. -/
def splitEquals (text : List Char) :
    List Char × Option (List Char) :=
  match text.dropWhile (· != '=') with
  | [] => (text, none)
  | _ :: after => (text.takeWhile (· != '='), some after)

namespace Grammar

/- The names of all options, with their options. -/
def names (g : Grammar) : List (String × OptionSpec) :=
  g.options.flatMap fun o => o.names.map fun n => (n, o)

/- The options that a shortened word may mean. -/
def candidates
    (g : Grammar)
    (text : List Char) : List Mention :=
  match text with
  | '-' :: '-' :: _ =>
      let (start, value?) := splitEquals text
      (g.names.filter fun n => start.isPrefixOf n.1.toList).map
        fun (n, o) => ⟨o, n, value?.map String.ofList⟩
  | _ =>
      g.names.filterMap fun (n, o) =>
        if n.toList = text.take 2 then
          some ⟨o, n, some (String.ofList (text.drop 2))⟩
        else if text.isPrefixOf n.toList then
          some ⟨o, n, none⟩
        else none

/- The option that a word names in full, with its value. -/
def inFull?
    (g : Grammar)
    (text : List Char) : Option Mention :=
  match g.names.lookup (String.ofList text) with
  | some o => some ⟨o, String.ofList text, none⟩
  | none =>
      match splitEquals text with
      | (_, none) => none
      | (start, some value) =>
          (g.names.lookup (String.ofList start)).map
            fun o =>
              ⟨o, String.ofList start,
                some (String.ofList value)⟩

/- What a word before `--` is. -/
def wordOf
    (g : Grammar)
    (s : String) : Except UsageError Word :=
  let text := s.toList
  if text.head? ≠ some '-' ∨ text = ['-'] then .ok (.argument s)
  else
    match g.inFull? text with
    | some m => .ok (.option s m)
    | none =>
        match g.candidates text with
        | [m] => .ok (.option s m)
        | [] =>
            if isNegativeNumber text || text.contains ' ' then
              .ok (.argument s)
            else .ok (.unknown s)
        | several =>
            .error (.ambiguous s (several.map fun m => m.name))

/- What the words of a command line are. -/
def classify
    (g : Grammar) :
    List String → Except UsageError (List Word)
  | [] => .ok []
  | s :: rest =>
      if s = "--" then
        .ok (.separator :: rest.map .argument)
      else
        match g.wordOf s with
        | .error e => .error e
        | .ok w => (g.classify rest).map fun ws => w :: ws

end Grammar

------------------------------------------------------------
-- Occurrences
------------------------------------------------------------

/- What an option that was given gives; a flag is set. -/
inductive Value where
| set
| text (s : Given String)
| integer (n : Given Int)
deriving DecidableEq, Repr

/- The text that an option gives. -/
def Value.text? : Value → Option (Given String)
  | .text s => some s
  | _ => none

/- The integer that an option gives. -/
def Value.integer? : Value → Option (Given Int)
  | .integer n => some n
  | _ => none

/-
  What has been read: the options in order, the operand with
  the words after it, and the words that nothing takes.
-/
structure Parsed where
  given : List (String × Value) := []
  operand? : Option (List String) := none
  extras : List String := []
deriving DecidableEq, Repr

namespace Parsed

/- Add an option. -/
def give
    (p : Parsed)
    (o : OptionSpec)
    (v : Value) : Parsed :=
  { p with given := p.given ++ [(o.key, v)] }

/- Add words that nothing takes. -/
def pass
    (p : Parsed)
    (words : List String) : Parsed :=
  { p with extras := p.extras ++ words }

end Parsed

namespace Grammar

/- A usage error of a grammar's program. -/
def fail
    {α : Type}
    (g : Grammar)
    (e : UsageError) : Except Stop α :=
  .error (.usage g.program e)

/- Read the value of an option. -/
def giveValue
    (g : Grammar)
    (p : Parsed)
    (o : OptionSpec)
    (s : String) : Except Stop Parsed :=
  match o.kind with
  | .integer =>
      match Numeral.read s.toList with
      | .ok n => .ok (p.give o (.integer (.value n)))
      | .error _ => g.fail (.badInteger o s)
  | .choice allowed =>
      if allowed.contains s then
        .ok (p.give o (.text (.value s)))
      else g.fail (.badChoice o.title s allowed)
  | _ => .ok (p.give o (.text (.value s)))

/- Give an option nothing in the place of its value. -/
def giveNothing
    (p : Parsed)
    (o : OptionSpec) : Parsed :=
  match o.kind with
  | .integer => p.give o (.integer .nothing)
  | _ => p.give o (.text .nothing)

/- Read the value in the word of an option; `--` is no value. -/
def giveAttached
    (g : Grammar)
    (p : Parsed)
    (o : OptionSpec)
    (s : String) : Except Stop Parsed :=
  if s = "--" then .ok (giveNothing p o) else g.giveValue p o s

/- Set a flag; some flags end parsing. -/
def setFlag
    (g : Grammar)
    (p : Parsed)
    (o : OptionSpec) : Except Stop Parsed :=
  match o.kind with
  | .help => .error (.help g.program)
  | .version => .error .version
  | _ => .ok (p.give o .set)

/- Set flags in order. -/
def setFlags
    (g : Grammar)
    (p : Parsed) : List OptionSpec → Except Stop Parsed
  | [] => .ok p
  | o :: rest =>
      match g.setFlag p o with
      | .ok p => g.setFlags p rest
      | .error e => .error e

/-
  Add the flags whose letters are joined to the last of some
  flags.
-/
def joinedFlags
    (g : Grammar)
    (flags : List OptionSpec)
    (last : OptionSpec) :
    List Char → Except Stop (List OptionSpec)
  | [] => .ok flags
  | letter :: rest =>
      match g.names.lookup (String.ofList ['-', letter]) with
      | none =>
          g.fail
            (.unexpectedValue last (String.ofList (letter :: rest)))
      | some o => g.joinedFlags (flags ++ [o]) o rest

/- Whether a name is a dash and one letter. -/
def isShort (name : String) : Bool :=
  match name.toList with
  | '-' :: '-' :: _ => false
  | _ => true

/-
  Read a flag with more text in its word.  Behind a short name
  that text, with or without `=`, is letters of more flags.
-/
def readJoined
    (g : Grammar)
    (p : Parsed)
    (m : Mention)
    (joined : String) : Except Stop Parsed :=
  if isShort m.name && !joined.isEmpty then
    match g.joinedFlags [m.spec] m.spec joined.toList with
    | .error e => .error e
    | .ok flags => g.setFlags p flags
  else g.fail (.unexpectedValue m.spec joined)

/- Take the words that are left when no options are among them. -/
def finish
    (g : Grammar)
    (p : Parsed)
    (words : List Word) : Parsed :=
  let texts := fun (ws : List Word) => ws.map Word.text
  if p.operand?.isSome then p.pass (texts words)
  else
    match g.operand, words with
    | .single, .argument a :: .separator :: rest =>
        { p with operand? := some [a] }.pass (texts rest)
    | .single, .argument a :: rest =>
        { p with operand? := some [a] }.pass (texts rest)
    | .single, .separator :: .argument a :: rest =>
        { p with operand? := some [a] }.pass (texts rest)
    | .single, .separator :: rest => p.pass (texts rest)
    | .command, .argument a :: rest =>
        { p with operand? := some (a :: texts rest) }
    | .command, .separator :: .argument a :: rest =>
        { p with operand? := some ("--" :: a :: texts rest) }
    | _, words => p.pass (texts words)

/- Read words behind what has been read. -/
def readWords
    (g : Grammar)
    (p : Parsed) :
    List Word → Except Stop Parsed
  | [] => .ok (g.finish p [])
  | .separator :: rest => .ok (g.finish p (.separator :: rest))
  | .unknown s :: rest => g.readWords (p.pass [s]) rest
  | .argument a :: rest =>
      if rest.any Word.isOption then
        if p.operand?.isNone && g.operand == .single then
          g.readWords { p with operand? := some [a] } rest
        else if p.operand?.isNone && g.operand == .command then
          .ok
            { p with
              operand? := some (a :: rest.map Word.text) }
        else g.readWords (p.pass [a]) rest
      else .ok (g.finish p (.argument a :: rest))
  | .option _ m :: rest =>
      match m.attached? with
      | some attached =>
          if m.spec.kind.takesValue then
            match g.giveAttached p m.spec attached with
            | .ok p => g.readWords p rest
            | .error e => .error e
          else
            match g.readJoined p m attached with
            | .ok p => g.readWords p rest
            | .error e => .error e
      | none =>
          if m.spec.kind.takesValue then
            match rest with
            | .argument v :: rest =>
                match g.giveValue p m.spec v with
                | .ok p => g.readWords p rest
                | .error e => .error e
            | _ => g.fail (.missingValue m.spec)
          else
            match g.setFlag p m.spec with
            | .ok p => g.readWords p rest
            | .error e => .error e

/- Read a command line. -/
def parse
    (g : Grammar)
    (words : List String) : Except Stop Parsed :=
  match g.classify words with
  | .ok words => g.readWords {} words
  | .error e => g.fail e

end Grammar

end CommandLine

end CommentLint
