import RecordGraph.Config.Json
import RecordGraph.Config.Yaml

/-!
Configuration files. The end of a file's name tells its format.
-/

namespace RecordGraph

/-- What follows the last point of a path's file name, unless the name begins there. -/
def SinkConfig.extension? (path : String) : Option String :=
  let fileName := (path.toList.reverse.takeWhile (· != '/')).reverse
  let extension := (fileName.reverse.takeWhile (· != '.')).reverse
  if extension.length + 1 < fileName.length then some (String.ofList extension) else none

def SinkConfig.load (path : String) (contents : Option String) : Except ConfigError SinkConfig :=
  match contents with
  | none => .error (.unreadable path)
  | some text =>
    match extension? path with
    | some "yaml" | some "yml" => ofYaml text
    | some "json" => ofJson text
    | _ => .error (.unsupportedFormat path)

end RecordGraph
