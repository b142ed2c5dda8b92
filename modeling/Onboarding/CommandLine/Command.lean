import Onboarding.CommandLine.Options
import Onboarding.Demo

namespace Onboarding.CommandLine

open Number

structure Serving where
  host : Option String := none
  port : Option Nat := none
  workers : Option Nat := none
deriving DecidableEq

structure Demonstration where
  dids : List String := []
  members : List String := []
  maxCycles : Option Nat := none
  asJson : Bool := false
deriving DecidableEq

def Demonstration.demo (d : Demonstration) : Demo where
  dids := d.dids
  members := d.members
  maxCycles := d.maxCycles.getD 50
  asJson := d.asJson

inductive Command where
  | serve (serving : Serving)
  | demonstrate (demo : Demo)
  | showText (text : String)
deriving DecidableEq

def port? (s : String) : Option Nat :=
  match s.toList with
  | '-' :: ds => if ds.head? = some '+' then none else whole? 0 (String.ofList ds)
  | _ => whole? max16 s

def servingOptions : List (OptionSpec Serving) := [
  ⟨"host", .value fun s a => (once a.host (some s)).map fun host => { a with host }⟩,
  ⟨"port", .value fun s a => (once a.port (port? s)).map fun port => { a with port }⟩,
  ⟨"workers", .value fun s a =>
    (once a.workers (whole? max64 s)).map fun workers => { a with workers }⟩]

def demonstrationOptions : List (OptionSpec Demonstration) := [
  ⟨"did", .value fun s a => some { a with dids := a.dids ++ [s] }⟩,
  ⟨"member", .value fun s a => some { a with members := a.members ++ [s] }⟩,
  ⟨"max-cycles", .value fun s a =>
    (once a.maxCycles (whole? max64 s)).map fun maxCycles => { a with maxCycles }⟩,
  ⟨"json", .flag fun a => if a.asJson then none else some { a with asJson := true }⟩]

def ofLines (lines : List String) : String := String.join (lines.map (· ++ "\n"))

def versionText : String := ofLines ["Dataspace Registry 0.1.0"]

def generalHelp : String := ofLines [
  "Run the dataspace participant registry or walk through a local onboarding demo",
  "",
  "Usage: dataspace-registry-api [COMMAND]",
  "",
  "Commands:",
  "  serve  Start the HTTP service and registration workers (default command)",
  "  demo   Onboard sample participants against an in-memory registry and print the outcome",
  "  help   Print this message or the help of the given subcommand(s)",
  "",
  "Options:",
  "  -h, --help     Print help",
  "  -V, --version  Print version"]

def servingHelp : String := ofLines [
  "Start the HTTP service and registration workers (default command)",
  "",
  "Usage: dataspace-registry-api serve [OPTIONS]",
  "",
  "Options:",
  "      --host <HOST>        Override the configured host for the HTTP server",
  "      --port <PORT>        Override the configured port for the HTTP server",
  "      --workers <WORKERS>  Override the number of registration workers",
  "  -h, --help               Print help"]

def demonstrationHelp : String := ofLines [
  "Onboard sample participants against an in-memory registry and print the outcome",
  "",
  "Usage: dataspace-registry-api demo [OPTIONS]",
  "",
  "Options:",
  "      --did <DIDS>               DIDs to register (repeatable). Defaults to alice, bob and carol",
  "      --member <MEMBERS>         Additional DIDs the stand-in directory should treat as dataspace members",
  "      --max-cycles <MAX_CYCLES>  Upper bound on poll cycles before the demo gives up [default: 50]",
  "      --json                     Print final statuses as JSON instead of a table",
  "  -h, --help                     Print help"]

def helpHelp : String := ofLines [
  "Print this message or the help of the given subcommand(s)",
  "",
  "Usage: dataspace-registry-api help [COMMAND]...",
  "",
  "Arguments:",
  "  [COMMAND]...  Print help for the subcommand(s)"]

def help? : List String → Option String
  | [] => some generalHelp
  | ["serve"] => some servingHelp
  | ["demo"] => some demonstrationHelp
  | ["help"] => some helpHelp
  | _ => none

def ofOptions {α : Type} (help : String) (command : α → Command) :
    Except Interruption α → Except String Command
  | .ok a => .ok (command a)
  | .error .help => .ok (.showText help)
  | .error (.wrong argument) => .error argument

def Command.ofArguments : List String → Except String Command
  | [] | ["--"] => .ok (.serve {})
  | "serve" :: rest => ofOptions servingHelp .serve (readOptions servingOptions {} none rest)
  | "demo" :: rest =>
    ofOptions demonstrationHelp (.demonstrate ·.demo)
      (readOptions demonstrationOptions {} none rest)
  | "help" :: names =>
    match help? names with
    | some text => .ok (.showText text)
    | none => .error (names.getLast?.getD "")
  | argument :: _ =>
    if asksForHelp argument then .ok (.showText generalHelp)
    else if argument = "--version" || argument.toList.take 2 = ['-', 'V'] then
      .ok (.showText versionText)
    else .error argument

end Onboarding.CommandLine
