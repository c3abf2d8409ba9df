import RouterAgent.World

/-!
Which platform the agent runs on.

The checks are made in order and the first one that holds decides. A source that cannot be read
counts as empty, so detection always comes to an answer.
-/

namespace RouterAgent

open RouterAgent.Text

/-! ### Platforms by name -/

def supportedPlatforms : List String :=
  ["edgeos", "ddwrt", "merlin", "openwrt", "pfsense", "synology", "tomato", "ubios"]

def unknownPlatform : String := ""

namespace Detection

inductive Check where
  /-- The kernel's answer to a question begins with a word. -/
  | kernel (flag word : String)
  /-- The path names something. -/
  | file (path : String)
  /-- The path names a directory. -/
  | dir (path : String)
  /-- The text of a file begins with a word. -/
  | content (path word : String)
deriving DecidableEq

/-- The checks, each with the platform that it finds. -/
def checks : List (Check × String) :=
  [(.kernel "-o" "DD-WRT", "ddwrt"),
   (.kernel "-o" "ASUSWRT-Merlin", "merlin"),
   (.file "/etc/openwrt_version", "openwrt"),
   (.dir "/data/unifi", "ubios"),
   (.kernel "-u" "synology", "synology"),
   (.kernel "-o" "Tomato", "tomato"),
   (.dir "/config/scripts/post-config.d", "edgeos"),
   (.file "/etc/ubnt/init/vyatta-router", "edgeos"),
   (.content "/etc/platform" "pfSense", "pfsense")]

def note (w : World) (level : Level) (text : String) : World := w.note level .probe text

/-- The kernel's answer to a question. The exit code does not matter. -/
def kernel (w : World) (flag : String) : String × World :=
  match w.run s!"uname {flag}" with
  | (.ran output _ _, w) => (output.getD "", w)
  | (.refused why, w) =>
    let fault := Fault.refused why "uname"
    ("", note w .debug s!"uname {flag} failed: {fault.message}")
  | (.timedOut, w) =>
    let command := Text.quotedList ["uname", flag]
    ("", note w .debug
      s!"uname {flag} failed: Command '{command}' timed out after 5.0 seconds")

def content (w : World) (path : String) : List Char × World :=
  let w := w.did (.opened path)
  match w.host.readText path with
  | .ok text => (text, w)
  | .error why =>
    ([], note w .debug s!"read {path} failed: {(Fault.refused why path).message}")

def Check.holds (w : World) : Check → Bool × World
  | kernel flag word =>
    let (answer, w) := Detection.kernel w flag
    (word.toList.isPrefixOf answer.toList, w)
  | file path => (w.host.holds path, w.did (.askedFor path))
  | dir path => (w.host.isDir path, w.did (.askedForDir path))
  | content path word =>
    let (text, w) := Detection.content w path
    (word.toList.isPrefixOf text, w)

/-- The platform of the first check that holds. -/
def first (w : World) : List (Check × String) → Option String × World
  | [] => (none, w)
  | (check, platform) :: rest =>
    match check.holds w with
    | (true, w) => (some platform, w)
    | (false, w) => first w rest

/-- The fault of asking a probe of which nothing is known. -/
def noProbe : Fault := .reported "NotImplementedError" .other none

end Detection

def World.detect (w : World) : String × World :=
  match Detection.first w Detection.checks with
  | (some platform, w) =>
    (platform, Detection.note w .info s!"detected router platform: {platform}")
  | (none, w) => (unknownPlatform, Detection.note w .info "no supported router platform detected")

/-- The published state. If there is none, the platform is detected and published. -/
def World.getState (w : World) : RouterState × World :=
  match w.published with
  | some state => (state, w)
  | none =>
    let (platform, w) := w.detect
    w.publish (.ofPlatform platform)

end RouterAgent
