import LocalePages.Log
import LocalePages.Project.Root

/-!
# New projects

A folder becomes a project when it gets a configuration that says what holds anyway, for its owner to change. One that is there
stays.
-/

namespace LocalePages

namespace Project

/-- Gives a folder a configuration, and logs what was done; none when the file cannot be written. -/
def create (d : Disk) (folder : Text) : Except (Text × DiskError) (Disk × Log) :=
  let file := Path.join folder configFileName
  if d.has file then .ok (d, Log.empty.error (configFileName ++ " already exists"))
  else
    match d.write file (.text Config.default.written) with
    | .ok d => .ok (d, Log.empty.info ("Created " ++ configFileName))
    | .error e => .error (file, e)

/-- What a diagnostic says of a file that cannot be written. -/
def unwrittenMessage (file : Text) (e : DiskError) : Text := "Failed to write file: " ++ file ++ ": " ++ e.message

end Project

end LocalePages
