namespace Amalgam
namespace Command

/-!
# Help and completions

The fixed texts that the program prints about itself.
-/

/-- The name and the release of the program. -/
def versionText : String :=
  "luamalg 0.1.0\n"

/-- How the program is used. -/
def helpText : String :=
  String.intercalate "\n"
    ["Luamalg - Lua core, libraries and interpreter in a single header",
     "",
     "Usage: luamalg [OPTIONS] [COMMAND]",
     "",
     "Commands:",
     "  generate     Write the amalgamated header (the default)",
     "  check        Fail if the generated header is missing or out of date",
     "  plan         Show the header and source order without writing anything",
     "  completions  Generate shell completions",
     "  help         Print this message",
     "",
     "Options:",
     "  -v, --verbose           Enable verbose output",
     "      --manifest <PATH>   Path to the amalgamation config",
     "      --source-dir <PATH> Directory containing the headers and sources",
     "  -o, --output <PATH>     Path of the generated header",
     "  -h, --help              Print help",
     "  -V, --version           Print version",
     ""]

/-- What is said about a command line that cannot be read. -/
def misuseText : String :=
  "error: unexpected or incomplete arguments\n\nFor more information, try '--help'.\n"

/-- The words that can stand first, with blanks between. -/
def completionWords : String :=
  "generate check plan completions help --verbose --manifest --source-dir --output"

/-- The completions for a shell. -/
def completionScript (shell : String) : String :=
  if shell = "fish" then
    "complete -c luamalg -f -a '" ++ completionWords ++ "'\n"
  else if shell = "zsh" then
    "#compdef luamalg\n_luamalg() \x7b compadd " ++ completionWords ++ " \x7d\n_luamalg\n"
  else if shell = "elvish" then
    "set edit:completion:arg-completer[luamalg] = \x7b|@words| put " ++ completionWords ++
      " \x7d\n"
  else if shell = "powershell" then
    "Register-ArgumentCompleter -Native -CommandName 'luamalg' -ScriptBlock \x7b '" ++
      completionWords ++ "' -split ' ' \x7d\n"
  else "complete -W '" ++ completionWords ++ "' luamalg\n"

end Command
end Amalgam
