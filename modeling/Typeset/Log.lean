/-!
The log. Until it is set up, records from the level of warnings on are written as their
bare message. Setting it up fixes a level once and for all, and from then on records
from that level on are written with the name of their logger and of their level.
-/

set_option autoImplicit false

namespace Typeset

namespace Level

def debug : Int := 10

def info : Int := 20

def warning : Int := 30

def error : Int := 40

def critical : Int := 50

end Level

structure Record where
  logger : String
  level : Int
  message : String
  deriving DecidableEq, Repr

namespace Record

def levelName (level : Int) : String :=
  if level = Level.debug then "DEBUG"
  else if level = Level.info then "INFO"
  else if level = Level.warning then "WARNING"
  else if level = Level.error then "ERROR"
  else if level = Level.critical then "CRITICAL"
  else s!"Level {level}"

def text (record : Record) : String :=
  s!"{record.logger} - {levelName record.level} - {record.message}\n"

end Record

/-- The name above all loggers of the library. -/
def rootLogger : String := "prettyfit"

/-- The full name of a logger. Names outside the library are put below its own. -/
def loggerName (name : String) : String :=
  if name.isEmpty then rootLogger
  else if name = rootLogger ∨ (rootLogger ++ ".").toList.isPrefixOf name.toList then name
  else rootLogger ++ "." ++ name

/-- The capital form of a letter in the name of a level. Besides the ASCII letters two
others have a capital form that occurs in such a name: U+0131 and U+017F. -/
def levelLetter (c : Char) : Char :=
  if c.toNat = 0x131 then 'I' else if c.toNat = 0x17F then 'S' else c.toUpper

/-- The level of a name, in capital or small letters. An unknown name counts as INFO. -/
def levelOfName (name : String) : Int :=
  match String.ofList (name.toList.map levelLetter) with
  | "DEBUG" => Level.debug
  | "INFO" => Level.info
  | "WARN" | "WARNING" => Level.warning
  | "ERROR" => Level.error
  | "CRITICAL" | "FATAL" => Level.critical
  | "NOTSET" => 0
  | _ => Level.info

structure Log where
  level : Option Int
  written : String
  deriving DecidableEq, Repr

namespace Log

def empty : Log where
  level := none
  written := ""

/-- The level from which on records are written. -/
def threshold (log : Log) : Int := log.level.getD Level.warning

/-- Fixes the level, unless that is done already. -/
def setUp (log : Log) (level : Int) : Log :=
  match log.level with
  | some _ => log
  | none => { log with level := some level }

/-- How a record is written. -/
def line (log : Log) (record : Record) : String :=
  if log.level.isSome then record.text else record.message ++ "\n"

/-- Writes a record if its level is positive and high enough. -/
def add (log : Log) (record : Record) : Log :=
  if 0 < record.level ∧ log.threshold ≤ record.level then
    { log with written := log.written ++ log.line record }
  else log

/-- What was written since it was last taken. -/
def takeWritten (log : Log) : String × Log := (log.written, { log with written := "" })

end Log

end Typeset
