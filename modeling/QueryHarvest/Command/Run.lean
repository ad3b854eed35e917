import QueryHarvest.Command.Arguments
import QueryHarvest.Command.Care

/-! # A run

A run reads its arguments and settings and carries out its command. -/

namespace QueryHarvest.Command

open Subset Files

/-- Why a run ends without an exit code of its command. -/
inductive Failure where
  | stop (reason : Stop)
  | settings (error : SettingsError)
  | run (error : RunError)
  deriving DecidableEq, Repr

/-- Is an error of the settings the user's to mend? Then it is told, and the run fails. -/
def isConfiguration : SettingsError → Bool
  | .notAPolicy _ => true
  | .notASeverity _ => true
  | .notAnInteger .. => true
  | .negative .. => true
  | .unknownHome => false
  | .environment _ => false
  | .unreadableFile _ => false

def carryOut (s : Settings) (outside : Outside) : Command → Job ExitCode
  | .analyze input raw => runAnalyze s input raw
  | .generate input output choice all => runGenerate s outside input output choice all
  | .install => runInstall s outside
  | .uninstall => runUninstall s
  | .check url => runCheck s outside url

/-- The environment file of a run that names none. -/
def defaultEnvFile : String := ".env"

/-- The settings of a run: from its variables, and from its environment file if there is one. -/
def settingsOf (defaultHome : Path) (own : Environment) (files : FileTree) (envFile : Option String) :
    Except SettingsError Settings :=
  Settings.loadFrom defaultHome own files (Path.ofText (envFile.getD defaultEnvFile))

/-- A whole run: the exit code or what ended it, and the workspace that it leaves. -/
def run (outside : Outside) (defaultHome : Path) (own : Environment) (arguments : List String)
    (files : FileTree) : Except Failure ExitCode × Workspace :=
  let w : Workspace := { files }
  match Arguments.read arguments with
  | .error reason => (.error (.stop reason), w)
  | .ok arguments =>
    match settingsOf defaultHome own files arguments.envFile with
    | .error error =>
      if isConfiguration error then
        (.ok .failure, { w with complaints := "ERROR: " ++ error.message ++ "\n" })
      else (.error (.settings error), w)
    | .ok s =>
      let (result, w) := (arguments.command.carryOut s outside).run w
      (result.mapError .run, w)

end QueryHarvest.Command
