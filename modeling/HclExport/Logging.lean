import HclExport.Export.Settings

/-!
# The settings of the log

How much is logged, and in which form.

## Main definitions

* `LogLevel`, `LogFormat` — the levels and forms that can be chosen.
* `LogSettings.check`, `LogSettings.ofMembers` — the settings of two texts, or of members.
* `levelNumber` — the number of a level, by any name that the log knows.
-/

namespace HclExport

/-- The levels that can be chosen. -/
inductive LogLevel
  | debug
  | info
  | warning
  | error
  | critical
  deriving DecidableEq

namespace LogLevel

/-- The name of a level. -/
def name : LogLevel → String
  | .debug => "DEBUG"
  | .info => "INFO"
  | .warning => "WARNING"
  | .error => "ERROR"
  | .critical => "CRITICAL"

/-- The number of a level: the greater, the more serious. -/
def number : LogLevel → Nat
  | .debug => 10
  | .info => 20
  | .warning => 30
  | .error => 40
  | .critical => 50

/-- All levels. -/
def all : List LogLevel :=
  [.debug, .info, .warning, .error, .critical]

/-- The level of a name in any letter case, or a complaint. -/
def parse (name : String) : Except Failure LogLevel :=
  match all.find? fun level => level.name = upper name with
  | some level => .ok level
  | none =>
    .error (.invalid ("Log level must be one of: " ++ quotedList (all.map LogLevel.name)))

end LogLevel

/-- The forms that can be chosen. -/
inductive LogFormat
  | console
  | json
  deriving DecidableEq

namespace LogFormat

/-- The name of a form. -/
def name : LogFormat → String
  | .console => "console"
  | .json => "json"

/-- The form of a name, or a complaint. -/
def parse (name : String) : Except Failure LogFormat :=
  match [LogFormat.console, .json].find? fun format => format.name = name with
  | some format => .ok format
  | none => .error (.invalid "Log format must be 'console' or 'json'")

end LogFormat

/-- How much is logged, and in which form. -/
structure LogSettings where
  level : LogLevel
  format : LogFormat

/-- Settings from two texts; where one is not given, the process variables and then the
defaults say. -/
def LogSettings.check (env : ProcessVariables) (level? format? : Option String) :
    Except Failure LogSettings := do
  let level ← LogLevel.parse (level?.getD (env.text "LOG_LEVEL" "INFO"))
  let format ← LogFormat.parse (format?.getD (env.text "LOG_FORMAT" "console"))
  return ⟨level, format⟩

/-- Settings from the members of an object. Only a text can be a level; anything but a form
is refused as a form. -/
def LogSettings.ofMembers (env : ProcessVariables) (members : Members) :
    Except Failure LogSettings := do
  if members.any fun m => m.1 != "level" && m.1 != "format" then .error .mistyped
  let level? ← (members.get? "level").mapM fun value =>
    match value.text? with
    | some level => .ok level
    | none => .error .unsupported
  check env level? ((members.get? "format").map fun value => (value.text?).getD "")

/-! ### Numbers of levels -/

/-- The further names of numbers: other names of levels, and switches that are on. -/
def otherNumbers : List (String × Nat) :=
  [("NOTSET", 0), ("WARN", 30), ("FATAL", 50), ("raiseExceptions", 1), ("logThreads", 1),
   ("logProcesses", 1), ("logMultiprocessing", 1)]

/-- What the log says about itself; a complaint about it quotes this text. -/
def selfDescription : String :=
  "\nLogging package for Python. Based on PEP 282 and comments thereto in\n" ++
    "comp.lang.python.\n\nCopyright (C) 2001-2019 Vinay Sajip. All Rights Reserved.\n\n" ++
    "To use, simply 'import logging' and log away!\n"

/-- The names of texts that the log keeps about itself and its lines. -/
def otherTexts : List (String × String) :=
  [("BASIC_FORMAT", "%(levelname)s:%(name)s:%(message)s"), ("__name__", "logging"),
   ("__package__", "logging"), ("__version__", "0.5.1.2"), ("__status__", "production"),
   ("__date__", "07 February 2010"), ("__doc__", selfDescription),
   ("__author__", "Vinay Sajip <vinay_sajip@red-dove.com>")]

/-- The names of what the log does. -/
def actionNames : List String :=
  ["critical", "debug", "disable", "error", "exception", "fatal", "info", "log", "warn",
   "warning", "shutdown", "basicConfig", "captureWarnings", "addLevelName", "currentframe",
   "getLevelName", "getLevelNamesMapping", "getLogRecordFactory", "getLogger",
   "getLoggerClass", "makeLogRecord", "setLogRecordFactory", "setLoggerClass",
   "_acquireLock", "_addHandlerRef", "_after_at_fork_child_reinit_locks", "_checkLevel",
   "_is_internal_frame", "_register_at_fork_reinit_lock", "_releaseLock",
   "_removeHandlerRef", "_showwarning"]

/-- The names of the parts that the log is made of. -/
def partNames : List String :=
  ["root", "lastResort", "BufferingFormatter", "FileHandler", "Filter", "Filterer",
   "Formatter", "GenericAlias", "Handler", "LogRecord", "Logger", "LoggerAdapter", "Manager",
   "NullHandler", "PercentStyle", "PlaceHolder", "RootLogger", "StrFormatStyle",
   "StreamHandler", "StringTemplateStyle", "Template", "_STYLES", "_StderrHandler",
   "_at_fork_reinit_lock_weakset", "_defaultFormatter", "_defaultLastResort",
   "_handlerList", "_handlers", "_levelToName", "_lock", "_logRecordFactory",
   "_loggerClass", "_nameToLevel", "_str_formatter", "atexit", "collections", "io", "os",
   "re", "sys", "threading", "time", "traceback", "warnings", "weakref", "__all__",
   "__annotations__", "__builtins__", "__dict__", "__loader__", "__path__", "__spec__"]

/-- The names that every part has. -/
def commonPartNames : List String :=
  ["__class__", "__delattr__", "__dir__", "__eq__", "__format__", "__ge__",
   "__getattribute__", "__getstate__", "__gt__", "__hash__", "__init__",
   "__init_subclass__", "__le__", "__lt__", "__ne__", "__new__", "__reduce__",
   "__reduce_ex__", "__repr__", "__setattr__", "__sizeof__", "__str__", "__subclasshook__"]

/-- Whether a name is that of an action or a part, which has no number. -/
def isWithoutNumber (name : String) : Bool :=
  actionNames.contains name || partNames.contains name || commonPartNames.contains name

/-- The greatest number of characters that are quoted of a text that is no number. -/
def quoteLimit : Nat := 200

/-- The complaint about a text that is no number. -/
def notANumber (text : String) : String :=
  "invalid literal for int() with base 10: " ++
    String.ofList ((quoted text).toList.take quoteLimit)

/-- The number of a name, or a complaint. -/
def levelNumber (name : String) : Except Failure Nat :=
  match LogLevel.all.find? fun level => level.name = name with
  | some level => .ok level.number
  | none =>
    match otherNumbers.lookup name, otherTexts.lookup name with
    | some number, _ => .ok number
    | none, some text => .error (.invalid (notANumber text))
    | none, none =>
      if isWithoutNumber name then .error .mistyped
      else .error (.invalid ("Invalid log level: " ++ name))

end HclExport
