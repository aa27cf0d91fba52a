import StageManifest.Instruction.Basic

/-!
# Recipes

Instructions for common toolchain steps, with the caches of the package
managers already mounted.
-/

set_option autoImplicit false

namespace StageManifest.Recipe

/-- A mount of a package manager's cache, used by one build at a time. -/
def packageCache (target : String) : CacheMount :=
  { target := target, sharing := some .locked }

/-- Names in rising order, repetitions kept. -/
def sortedNames (names : List String) : List String :=
  names.mergeSort fun first second => decide (first ≤ second)

/-- Installs Debian packages, named in rising order. -/
def aptInstall (packages : List String) : Instruction :=
  .run
    ("apt-get update && DEBIAN_FRONTEND=noninteractive apt-get install -y " ++
      "--no-install-recommends " ++ " ".intercalate (sortedNames packages))
    [packageCache "/var/cache/apt", packageCache "/var/lib/apt"]

/-- Runs a subcommand of cargo with its registry cached. -/
def cargo (subcommand : String) : Instruction :=
  .run ("cargo " ++ subcommand) [packageCache "/root/.cargo/registry"]

/-- Installs a pinned toolchain and puts its programs on the search path. -/
def rustToolchain (version : String) : List Instruction :=
  [.run ("curl https://sh.rustup.rs -sSf | sh -s -- -y --default-toolchain " ++ version) [],
    Instruction.envOf [("PATH", "$PATH:/root/.cargo/bin")]]

end StageManifest.Recipe
