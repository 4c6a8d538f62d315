import Preflight.Options
import Preflight.Report.Render
import Preflight.Session.Events
import Preflight.Session.World
import Preflight.Settings.Config

/-!
This module contains what comes before a session: the log is opened, the settings file is read, and
both are combined with the options. An option counts more than the settings file.
-/

namespace Preflight

structure Session where
  options : Options
  log : Log
  renderer : Renderer
  manner : Prompt.Manner

namespace Session

open SessionM

def logFilter (environment : Environment) : Log.Filter :=
  ((environment.nonempty? "CCHELL_LOG".toList).bind Log.Filter.parse?).getD Log.Filter.default

def makeLogFile (file : Text) : SessionM Unit := do
  let path := Path.ofText file
  match path.fileName? with
  | none =>
    throw (.complain ("log file '".toList ++ path.display ++ "' has no file name".toList) [])
  | some name =>
    let directory := if path.parent.isEmpty then Path.ofText ['.'] else path.parent
    let world ← get
    match world.files.makeDirectories directory >>= (·.makeFile directory name) with
    | .ok files => set { world with files := files }
    | .error error =>
      let message := "failed to create log directory '".toList ++ directory.display ++ ['\'']
      throw (.complain message [error.describe])

def openLog : SessionM Log := do
  let environment := (← get).environment
  match environment.nonempty? "CCHELL_LOG_FILE".toList with
  | some file =>
    makeLogFile file
    -- What is written to the file is not modelled.
    return .silent
  | none => return ⟨logFilter environment, (environment.nonempty? "NO_COLOR".toList).isNone⟩

def defaultHome : Path := Path.ofText "/root".toList

def configDirectory (environment : Environment) : Path :=
  let home :=
    match environment.nonempty? "HOME".toList with
    | some home => Path.ofText home
    | none => defaultHome
  match environment.get? "XDG_CONFIG_HOME".toList with
  | some directory =>
    -- A relative directory counts for nothing.
    if (Path.ofText directory).isAbsolute then Path.ofText directory
    else home.join (Path.ofText ".config".toList)
  | none => home.join (Path.ofText ".config".toList)

def defaultConfigFile (environment : Environment) : Path :=
  (configDirectory environment).join (Path.ofText "cchell/config.toml".toList)

def namedConfigFile? (options : Options) (environment : Environment) : Option Path :=
  (options.config.or (environment.nonempty? "CCHELL_CONFIG".toList)).map Path.ofText

def readConfig (log : Log) (path : Path) : SessionM Config := do
  let unreadable (reason : Text) : SessionM Config :=
    throw (.complain
      ("failed to read config '".toList ++ path.display ++ "': ".toList ++ reason) [])
  match (← get).files.read path with
  | .error error => unreadable error.describe
  | .ok bytes =>
    match Utf8.decode? bytes with
    | none => unreadable "stream did not contain valid UTF-8".toList
    | some t =>
      match Config.parse t with
      | none => throw (.complain ("invalid config '".toList ++ path.display ++ ['\'']) [])
      | some config =>
        note log (Events.loadedConfig path)
        return config

def loadConfig (log : Log) (options : Options) : SessionM Config := do
  let world ← get
  match namedConfigFile? options world.environment with
  | some path => readConfig log path
  | none =>
    let path := defaultConfigFile world.environment
    if world.files.pathExists path then
      readConfig log path
    else
      note log (Events.noConfig path)
      return .default

def isColored (coloring : Coloring) (world : World) : Bool :=
  let isSet (name : String) : Bool := world.environment.get? name.toList = some ['1']
  match coloring with
  | .always => true
  | .never => false
  | .auto => if isSet "NO_COLOR" then false else isSet "COLOR" || world.errorsAreShown

def combine (options : Options) (config : Config) (log : Log) (colored : Bool) : Session where
  options := options
  log := log
  renderer :=
    { theme :=
        { config.theme with
          contextLines := options.contextLines.getD config.theme.contextLines }
      isColored := colored }
  manner :=
    { echo := config.echo && !options.noEcho
      tagColor := if colored then some config.tagColor else none }

def setUp (options : Options) : SessionM Session := do
  let log ← openLog
  let config ← loadConfig log options
  let colored := isColored options.coloring (← get)
  note log (Events.settings colored options.dump options.yes)
  return combine options config log colored

end Session

end Preflight
