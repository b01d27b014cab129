namespace RipInterpreter.About

/-- The version of the language and its interpreter. -/
def versionNumber : String := "0.1.0"

/-- Who holds the rights. -/
def copyright : String := "copyright © Thomas Ingram"

/-- The name in large letters. -/
def logo : String :=
  "\n".intercalate [
    "         _            _          _",
    "        /\\ \\         /\\ \\       /\\ \\",
    "       /  \\ \\        \\ \\ \\     /  \\ \\",
    "      / /\\ \\ \\       /\\ \\_\\   / /\\ \\ \\",
    "     / / /\\ \\_\\     / /\\/_/  / / /\\ \\_\\",
    "    / / /_/ / /    / / /    / / /_/ / /",
    "   / / /__\\/ /    / / /    / / /__\\/ /",
    "  / / /_____/    / / /    / / /_____/",
    " / / /\\ \\ \\  ___/ / /__  / / /",
    "/ / /  \\ \\ \\/\\__\\/_/___\\/ / /",
    "\\/_/    \\_\\/\\/_________/\\/_/"]

/-- The version, with the name of the language in front of it if asked for. -/
def version (verbose : Bool) : String :=
  if verbose then "Rip version " ++ versionNumber else versionNumber

/-- The version and the holder of the rights on a line each. -/
def summary (verbose : Bool) : String := version verbose ++ "\n" ++ copyright

end RipInterpreter.About
