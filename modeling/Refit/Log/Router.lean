import Refit.Files.Path

/-!
Records of what a run does, and their routing. A configuration puts a console and possibly a log file in
place of whatever was there before; each record goes to all that are in place and admit its level.
-/

namespace Refit.Log

inductive Level where
  | debug
  | info
  | warning
  | error
  | critical
  deriving DecidableEq

def Level.text : Level → String
  | debug => "DEBUG"
  | info => "INFO"
  | warning => "WARNING"
  | error => "ERROR"
  | critical => "CRITICAL"

def Level.rank : Level → Nat
  | debug => 1
  | info => 2
  | warning => 3
  | error => 4
  | critical => 5

/-- A message from a part of the program; the program as a whole has an empty part. -/
structure Record where
  level : Level
  part : String
  message : String
  deriving DecidableEq

def programName : String := "uimigrate"

/-- Where records go. A console writes to one of the streams. -/
inductive Handler where
  | silent
  | console (stream : Nat) (verbose : Bool)
  | file (path : Path)
  deriving DecidableEq

/-- The handlers in place, the least level that they get to see, and what the streams have received. -/
structure Router where
  threshold : Option Level
  handlers : List Handler
  streams : List String

def fullName (part : String) : String :=
  if part.isEmpty then programName else programName ++ "." ++ part

/-- A line for a console. Only a verbose console names parts. -/
def consoleLine (verbose : Bool) (record : Record) : String :=
  let tag := if verbose && !record.part.isEmpty then programName ++ ":" ++ record.part else programName
  "[" ++ tag ++ "] " ++ record.level.text ++ " " ++ record.message ++ "\n"

def fileLine (stamp : String) (record : Record) : String :=
  stamp ++ " " ++ record.level.text ++ " " ++ fullName record.part ++ ": " ++ record.message ++ "\n"

namespace Router

/-- Before any configuration records go nowhere. -/
def initial : Router := ⟨none, [.silent], []⟩

def withConsole (router : Router) (verbose detailed : Bool) : Router :=
  { threshold := some (if verbose || detailed then .debug else .info)
    handlers := [.console router.streams.length verbose]
    streams := router.streams ++ [""] }

def withFile (router : Router) (path : Path) : Router :=
  { router with handlers := router.handlers ++ [.file path] }

def configure (router : Router) (verbose : Bool) (file : Option Path) : Router :=
  match file with
  | none => router.withConsole verbose false
  | some path => (router.withConsole verbose true).withFile path

def admits (router : Router) (level : Level) : Bool :=
  match router.threshold with
  | none => true
  | some least => least.rank ≤ level.rank

def consoleLevel (verbose : Bool) : Level := if verbose then .debug else .info

def append (streams : List String) (stream : Nat) (text : String) : List String :=
  streams.modify stream (· ++ text)

def deliver (record : Record) (streams : List String) : Handler → List String
  | .console stream verbose =>
    if (consoleLevel verbose).rank ≤ record.level.rank then
      append streams stream (consoleLine verbose record)
    else streams
  | _ => streams

def emit (router : Router) (record : Record) : Router :=
  if router.admits record.level then
    { router with streams := router.handlers.foldl (deliver record) router.streams }
  else router

def print (router : Router) (text : String) : Router :=
  { router with streams := append router.streams (router.streams.length - 1) text }

def filesFor (router : Router) (record : Record) : List Path :=
  if router.admits record.level then
    router.handlers.filterMap (fun handler =>
      match handler with
      | .file path => some path
      | _ => none)
  else []

end Router
end Refit.Log
