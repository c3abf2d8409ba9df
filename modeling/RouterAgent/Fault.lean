import RouterAgent.Lease.Problem

/-!
What can go wrong, as causes.

A fault belongs to the agent, to the operating system or to neither. Faults of the agent are those
that its callers expect; `label`, `message` and the origin are what they see of a fault.
-/

namespace RouterAgent

/-- The steps of the agent's life at which a platform may act. -/
inductive Hook where
  | configure
  | configureService
  | preRun
  | postInstall
  | cleanup
deriving DecidableEq

def Hook.name : Hook → String
  | configure => "configure"
  | configureService => "configure_service"
  | preRun => "pre_run"
  | postInstall => "post_install"
  | cleanup => "cleanup"

inductive Origin where
  | agent
  | system
  | other
deriving DecidableEq

/-- Why a file or a program could not be opened. -/
inductive Refusal where
  | missing
  | denied
  | directory
deriving DecidableEq

/-- The number of the operating system for a refusal, and its words. -/
def Refusal.words : Refusal → String
  | missing => "[Errno 2] No such file or directory"
  | denied => "[Errno 13] Permission denied"
  | directory => "[Errno 21] Is a directory"

/-- Why the settings store gave no answer; `line` is the command that asked it. -/
inductive StoreProblem where
  | absent (program : String)
  | failed (line : String) (why : String)
  | slow (line : String)
deriving DecidableEq

def StoreProblem.words : StoreProblem → String
  | absent program => s!"nvram: {program} not found"
  | failed line why => s!"nvram: {line} failed: {why}"
  | slow line => s!"nvram: {line} timed out"

/-- Why a value did not serve as what was wanted. -/
inductive Misfit where
  /-- A value of this kind is no number. -/
  | noNumber (kind : String)
  /-- The text writes no number. -/
  | badNumeral (text : String)
  /-- The whole number is too large for a floating-point number. -/
  | tooLarge
  /-- A value of this kind has no order among numbers. -/
  | unordered (kind : String)
  /-- A value of this kind cannot do this. -/
  | lacks (kind ability : String)
  /-- A value of this kind has no items. -/
  | noItems (kind : String)
  /-- An item is not a pair. -/
  | noPair
  /-- A value of this kind cannot be a key. -/
  | noKey (kind : String)
  /-- The whole number has too many digits to be written. -/
  | tooLong
  /-- No character has this number. -/
  | noCharacter
  /-- The delay is longer than can be waited. -/
  | tooLate
deriving DecidableEq

def Misfit.words : Misfit → String
  | noNumber kind =>
    s!"float() argument must be a string or a real number, not '{kind}'"
  | badNumeral text => s!"could not convert string to float: {Text.quoted text}"
  | tooLarge => "int too large to convert to float"
  | unordered kind => s!"'<=' not supported between instances of '{kind}' and 'int'"
  | lacks kind ability => s!"'{kind}' object has no attribute '{ability}'"
  | noItems kind => s!"'{kind}' object is not iterable"
  | noPair => "a pair was expected"
  | noKey kind => s!"unhashable type: '{kind}'"
  | tooLong => "Exceeds the limit (4300 digits) for integer string conversion"
  | noCharacter => "chr() arg not in range(0x110000)"
  | tooLate => "timeout value is too large"

def Misfit.label : Misfit → String
  | noNumber _ | unordered _ | noItems _ | noKey _ => "TypeError"
  | badNumeral _ | noPair | tooLong | noCharacter => "ValueError"
  | tooLarge | tooLate => "OverflowError"
  | lacks _ _ => "AttributeError"

/-- Settings that are numbers but make no sense. -/
inductive BadSetting where
  | negativeRefresh
  | readinessDelays
  | backoffDelays
deriving DecidableEq

def BadSetting.words : BadSetting → String
  | negativeRefresh => "router.client_info_refresh must not be negative"
  | readinessDelays => "router readiness delays must be positive"
  | backoffDelays => "backoff delays must be positive"

inductive Fault where
  /-- The agent does not know the platform. -/
  | unsupported (platform : String)
  /-- The platform keeps no files across a restart. -/
  | noJournal
  /-- The file watcher did not start. -/
  | watchStart (why : String)
  /-- A platform's hook failed for a reason of its own. -/
  | hook (platform : String) (hook : Hook) (cause : Fault)
  /-- Waiting was cancelled. -/
  | cancelled (name : String) (attempts : Nat)
  /-- A lease file has a problem. -/
  | leases (path : String) (problem : Lease.Problem)
  /-- The settings store has a problem. -/
  | store (problem : StoreProblem)
  /-- A file or program could not be opened. -/
  | refused (why : Refusal) (path : String)
  /-- A file's bytes are no text. -/
  | undecodable
  /-- A configuration file is not well formed. -/
  | malformed
  /-- A value did not serve. -/
  | misfit (m : Misfit)
  /-- A setting makes no sense. -/
  | badSetting (b : BadSetting)
  /-- The registry has no place for this platform. -/
  | noSuchPlatform (name : String) (known : List String)
  /-- A collaborator reported a fault by a kind and perhaps a text. -/
  | reported (label : String) (origin : Origin) (text : Option String)
deriving DecidableEq

namespace Fault

def journalAdvice : String :=
  "could not install service without jffs, follow this guide to enable: " ++
    "https://wiki.dd-wrt.com/wiki/index.php/Journalling_Flash_File_System"

def message : Fault → String
  | unsupported _ => "unsupported platform"
  | noJournal => journalAdvice
  | watchStart why => s!"could not start file watcher: {why}"
  | hook platform h cause => s!"{platform}: {h.name}: {cause.message}"
  | cancelled name attempts => s!"{name}: cancelled after {attempts} attempts"
  | leases path problem => s!"{path}: {problem.reason}"
  | store problem => problem.words
  | refused why path => s!"{why.words}: {Text.quoted path}"
  | undecodable => "invalid text"
  | malformed => "invalid document"
  | misfit m => m.words
  | badSetting b => b.words
  | noSuchPlatform name known =>
    s!"Unknown platform: {Text.quoted name}. Available: {Text.quotedList known}"
  | reported label _ text =>
    if label = "KeyError" then text.elim "" Text.quoted else text.getD ""

def label : Fault → String
  | unsupported _ => "NotSupportedError"
  | noJournal => "Jffs2NotEnabledError"
  | watchStart _ => "WatcherInitError"
  | hook _ _ _ => "HandlerError"
  | cancelled _ _ => "ReadinessCancelledError"
  | leases _ _ => "ClientInfoParseError"
  | store _ => "NvramError"
  | refused .missing _ => "FileNotFoundError"
  | refused .denied _ => "PermissionError"
  | refused .directory _ => "IsADirectoryError"
  | undecodable => "UnicodeDecodeError"
  | malformed => "YAMLError"
  | misfit m => m.label
  | badSetting _ => "ValueError"
  | noSuchPlatform _ _ => "KeyError"
  | reported label _ _ => label

def origin : Fault → Origin
  | unsupported _ | noJournal | watchStart _ | hook _ _ _ | cancelled _ _ | leases _ _ | store _ =>
    .agent
  | refused _ _ => .system
  | reported _ origin _ => origin
  | _ => .other

def agentLabels : List String :=
  ["RouterError", "NotSupportedError", "PlatformPreconditionError", "Jffs2NotEnabledError",
   "WatcherInitError", "HandlerError", "ReadinessCancelledError", "ClientInfoParseError",
   "NvramError"]

def systemLabels : List String :=
  ["OSError", "FileNotFoundError", "PermissionError", "IsADirectoryError", "NotADirectoryError",
   "FileExistsError", "BlockingIOError", "ChildProcessError", "ConnectionError",
   "BrokenPipeError", "ConnectionAbortedError", "ConnectionRefusedError",
   "ConnectionResetError", "InterruptedError", "ProcessLookupError", "TimeoutError"]

/-- The fault that a collaborator reports by a kind, a text and, for lease files, a path. -/
def ofLabel (label : String) (text : Option String) (path : String) : Fault :=
  if label = "NotSupportedError" then unsupported (text.getD "")
  else if label = "Jffs2NotEnabledError" then noJournal
  else if label = "ClientInfoParseError" then leases path (.reported (text.getD ""))
  else
    let origin := if agentLabels.contains label then Origin.agent
      else if systemLabels.contains label then .system else .other
    reported label origin text

end Fault

end RouterAgent
