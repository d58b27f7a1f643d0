import OrderedEnv.Environment
import OrderedEnv.Path
import OrderedEnv.Shell

/-!
# Locations

Where the store and the limits are kept, and which shell the user runs, by the environment of the
process. A variable that is not UTF-8 counts as one that is not set.
-/

namespace OrderedEnv

/-- The name of the tool, which is the name of its directory among the configurations. -/
def toolName : String := "envman"

/-- The name of a store for which no path is given. -/
def storeName : String := ".envstore.yml"

/-- The name of the file that holds the limits. -/
def limitsName : String := "configs.json"

/-- The store of a directory. -/
def Path.storeIn (directory : Path) : Path := directory.join (.ofText storeName)

namespace ProcessEnvironment

/-- The path that a variable holds. -/
def path? (environment : ProcessEnvironment) (name : String) : Option Path :=
  (environment.text? name).map .ofText

/-- The home directory, the working directory if there is none. -/
def homeDirectory (environment : ProcessEnvironment) : Path :=
  (environment.path? "HOME").getD (.ofText ".")

/-- The directory that holds what the tool keeps for a user. -/
def configDirectory (environment : ProcessEnvironment) : Path :=
  let configurations :=
    (environment.path? "XDG_CONFIG_HOME").getD (environment.homeDirectory.join (.ofText ".config"))
  configurations.join (.ofText toolName)

/-- The file that holds the limits. -/
def limitsPath (environment : ProcessEnvironment) : Path :=
  environment.configDirectory.join (.ofText limitsName)

/-- The name of the program at the end of a path. -/
def programName (path : Path) : String :=
  match path.fileName? with
  | none => ""
  | some name => ((Path.mk name).text?).getD ""

/-- The shell of the user, the plain one if none is known. -/
def shell (environment : ProcessEnvironment) : Shell :=
  match environment.path? "SHELL" with
  | none => .sh
  | some path => .ofProgram (programName path)

end ProcessEnvironment

end OrderedEnv
