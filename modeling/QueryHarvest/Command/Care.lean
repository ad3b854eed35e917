import QueryHarvest.Command.Generate

/-! # Caring for the subsetting tool

The commands that install and remove the tool, and the one that looks at what a run needs. -/

namespace QueryHarvest.Command

open Subset Files Target
open Job (report numberSteps)

def runInstall (s : Settings) (outside : Outside) : Job ExitCode := do
  let tool : Tool := ⟨s.toolHome, s.toolVersion⟩
  numberSteps 3
  report (.header "Seedify - Installing Jailer")
  report (.step "Checking Java installation...")
  match ← Tool.runtimeVersion outside with
  | none =>
    giveUp "Java not found" ["Install Java 11+:", "  macOS:  brew install openjdk@17",
      "  Ubuntu: sudo apt install openjdk-17-jdk"]
  | some version =>
    report (.success version)
    report (.step "Checking existing installation...")
    if tool.isInstalled (← Job.files) then
      report (.success ("Already installed at: " ++ tool.home.text))
      report (.detail "To reinstall, run: seedify uninstall")
      return .success
    else
      report (.detail "Not installed, proceeding...")
      report (.step ("Downloading Jailer " ++ tool.version ++ "..."))
      report (.detail ("URL: " ++ tool.downloadUrl))
      match ← tryTool (tool.install outside) with
      | .error error =>
        giveUp ("Installation failed: " ++ error.message) ["Try manually:",
          "  1. Download: " ++ tool.downloadUrl, "  2. Extract to: " ++ tool.home.text]
      | .ok _ =>
        report (.success ("Installed to: " ++ tool.home.text))
        report (.footer "Jailer installed successfully!")
        return .success

def runUninstall (s : Settings) : Job ExitCode := do
  let tool : Tool := ⟨s.toolHome, s.toolVersion⟩
  report (.header "Seedify - Uninstalling Jailer")
  report (.detail ("Removing: " ++ tool.home.text))
  match ← tool.uninstall.attempt with
  | .error error =>
    giveUp ("Failed to remove: " ++ error.message)
      ["Try manually: rm -rf \x22" ++ tool.home.text ++ "\x22"]
  | .ok true =>
    report (.success "Jailer uninstalled successfully.")
    return .success
  | .ok false =>
    report (.detail "Jailer is not installed.")
    return .success

/-- Look at the database of a URL. Tells whether it is reached. An error without a text is none. -/
def checkDatabase (outside : Outside) (url : String) : Job Bool := do
  report (.detail "Database:")
  match Target.ofUrl url with
  | .error error =>
    report (.failure error.message)
    return false
  | .ok target =>
    match outside.databaseError.filter fun error => !error.isEmpty with
    | some error =>
      report (.failure (target.describe ++ ": " ++ error))
      return false
    | none =>
      report (.success ("Connected to " ++ target.describe))
      return true

def runCheck (s : Settings) (outside : Outside) (url : Option String) : Job ExitCode := do
  let tool : Tool := ⟨s.toolHome, s.toolVersion⟩
  report (.header "Seedify - Environment Check")
  report (.detail "Java:")
  let runtime ← Tool.runtimeVersion outside
  report (runtime.elim (.failure "Not installed") .success)
  report (.detail "Jailer:")
  let installed := tool.isInstalled (← Job.files)
  report (if installed then .success ("Installed at " ++ tool.home.text)
    else .failure "Not installed. Run: seedify install")
  let reached ← match ({ url } : Choice).urlFrom s with
    | none => pure true
    | some url => checkDatabase outside url
  return if runtime.isSome && installed && reached then .success else .failure

end QueryHarvest.Command
