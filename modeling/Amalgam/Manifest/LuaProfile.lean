import Amalgam.Manifest.Basic

namespace Amalgam
namespace LuaProfile

/-!
# The built-in profile

The manifest for the Lua distribution: its sources in compilation-dependency
order, its seed headers, and the texts injected into the document.  The release
named in the prologue is the only part that varies.
-/

/-- Lines of text, each ended by a line feed. -/
def textOfLines (lines : List String) : String :=
  String.join (lines.map (· ++ "\n"))

/-- The release named when no other is asked for. -/
def defaultVersion : String :=
  "5.4.7"

/-- The sources that everything else is built on. -/
def coreSources : List String :=
  ["lzio.c", "lctype.c", "lopcodes.c", "lmem.c", "lundump.c", "ldump.c", "lstate.c",
   "lgc.c", "llex.c", "lcode.c", "lparser.c", "ldebug.c", "lfunc.c", "lobject.c", "ltm.c",
   "lstring.c", "ltable.c", "ldo.c", "lvm.c", "lapi.c"]

/-- The auxiliary library and the standard library. -/
def librarySources : List String :=
  ["lauxlib.c", "lbaselib.c", "lcorolib.c", "ldblib.c", "liolib.c", "lmathlib.c",
   "loadlib.c", "loslib.c", "lstrlib.c", "ltablib.c", "lutf8lib.c", "linit.c"]

/-- The headers that every other header of the distribution depends on. -/
def seedHeaders : List String :=
  ["lprefix.h", "luaconf.h", "lua.h", "llimits.h", "lobject.h", "ltm.h"]

/-- A generated dispatch table, meaningful only inside one source. -/
def excluded : List String :=
  ["ljumptab.h"]

/-- The header that the epilogue follows. -/
def configHeader : String :=
  "luaconf.h"

/-- The terms of use and how to use the header, after the line that names the
release. -/
def terms : List String :=
  ["file.",
   "",
   "  Do this:",
   "    #define LUA_IMPLEMENTATION",
   "  before you include this file in *one* C or C++ file to create the implementation.",
   "",
   "Lua is free software distributed under the terms of the MIT license:",
   "Copyright © 1994-2024 Lua.org, PUC-Rio.",
   "",
   "Permission is hereby granted, free of charge, to any person obtaining a copy of",
   "this software and associated documentation files (the \"Software\"), to deal in",
   "the Software without restriction, including without limitation the rights to",
   "use, copy, modify, merge, publish, distribute, sublicense, and/or sell copies of",
   "the Software, and to permit persons to whom the Software is furnished to do so,",
   "subject to the following conditions:",
   "",
   "The above copyright notice and this permission notice shall be included in all",
   "copies or substantial portions of the Software.",
   "",
   "THE SOFTWARE IS PROVIDED \"AS IS\", WITHOUT WARRANTY OF ANY KIND, EXPRESS OR",
   "IMPLIED, INCLUDING BUT NOT LIMITED TO THE WARRANTIES OF MERCHANTABILITY, FITNESS",
   "FOR A PARTICULAR PURPOSE AND NONINFRINGEMENT. IN NO EVENT SHALL THE AUTHORS OR",
   "COPYRIGHT HOLDERS BE LIABLE FOR ANY CLAIM, DAMAGES OR OTHER LIABILITY, WHETHER",
   "IN AN ACTION OF CONTRACT, TORT OR OTHERWISE, ARISING FROM, OUT OF OR IN",
   "CONNECTION WITH THE SOFTWARE OR THE USE OR OTHER DEALINGS IN THE SOFTWARE.",
   "*/"]

/-- The system headers that the implementation needs. -/
def systemHeaders : List String :=
  ["assert.h", "ctype.h", "errno.h", "float.h", "limits.h", "locale.h", "math.h",
   "setjmp.h", "signal.h", "stdarg.h", "stddef.h", "stdio.h", "stdlib.h", "string.h",
   "time.h"]

/-- What has to be defined before the configuration header is read. -/
def setup : List String :=
  ["/* setup for luaconf.h */",
   "#define LUA_CORE",
   "#define LUA_LIB",
   "#define ltable_c",
   "#define lvm_c"]

/-- The prologue for a release. -/
def prologue (version : String) : String :=
  textOfLines <|
    ("/* Luamalg -- Lua " ++ version ++ " core, libraries and interpreter in a single header") ::
      terms ++ [""] ++ systemHeaders.map (fun h => "#include <" ++ h ++ ">") ++ [""] ++ setup

/-- Injected after the configuration header, so that internal symbols get
internal linkage. -/
def epilogue : String :=
  textOfLines
    ["/* do not export internal symbols */",
     "#undef LUAI_FUNC",
     "#undef LUAI_DDEC",
     "#undef LUAI_DDEF",
     "#define LUAI_FUNC\tstatic",
     "#define LUAI_DDEC(def)\t/* empty */",
     "#define LUAI_DDEF\tstatic"]

/-- The manifest for a release. -/
def manifest (version : String) : Manifest where
  sources := coreSources ++ librarySources
  headers := seedHeaders
  excluded := excluded
  configHeader := configHeader
  stem := "l"
  macros := ["LUA_IMPLEMENTATION", "LUAMALG_IMPLEMENTATION"]
  prologue := prologue version
  epilogue := epilogue

end LuaProfile

/-- The built-in manifest for a release. -/
def Manifest.lua (version : String) : Manifest :=
  LuaProfile.manifest version

/-- The built-in manifest for the default release. -/
def Manifest.builtIn : Manifest :=
  Manifest.lua LuaProfile.defaultVersion

end Amalgam
