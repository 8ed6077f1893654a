import Crosswalk.Calendar.Reading
import Crosswalk.Filter.IsoNames
import Crosswalk.Host
import Crosswalk.Query.Jmes.Eval
import Crosswalk.Query.JsonPath.Parser
import Crosswalk.Query.XPath.Eval

/-!
# The bundled host

The readers of this library, which know the common forms of what they read, as the host that the
program runs on.
-/

namespace Crosswalk

/-- A text has at most four gigabytes. -/
instance Host.bundled : Host where
  isoName? := Filter.isoName?
  moment? := Moment.read?
  holds length := length ≤ powerOfTwo 32
  xml? := Xml.read?
  jmes? := Jmes.search
  jsonPath? path v := (JsonPath.Path.read? path).map fun p => p.find v v
  xpath? := XPath.search

end Crosswalk
