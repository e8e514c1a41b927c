import LocalePages.Disk
import LocalePages.Tool.Call

/-!
# Where a tool is

A tool that is named by a path of more than one component is where the path leads. The others are looked for in the folders of the
search path, in their order.
-/

namespace LocalePages

/-- The path of a program, if there is one that can be run. -/
def findProgram (d : Disk) (searchPath : Option Text) (program : Text) : Option Text :=
  if 1 < (Path.components program).length then
    if d.isProgram program then some program else none
  else
    match searchPath with
    | none => none
    | some folders => ((folders.splitOn ':').map fun folder => Path.join folder program).find? d.isProgram

end LocalePages
