import MilliCore.Result
import MilliCore.Utf8
import MilliCore.Store
import MilliCore.Search.Syntax
import MilliCore.Search.Evaluate
import MilliCore.Search.Semantics
import MilliCore.Search.Operators
import MilliCore.Search.Validity
import MilliCore.Search.AndFold
import MilliCore.Search.Geo
import MilliCore.Search.StringOperators
import MilliCore.Search.GeoRadius
import MilliCore.Search.Rewrites
import MilliCore.Search.FromJson
import MilliCore.Extract.Basic
import MilliCore.Extract.MergeJoin
import MilliCore.Extract.WordDocids
import MilliCore.Extract.Window
import MilliCore.Extract.WordPairProximity
import MilliCore.Extract.PairOrder
import MilliCore.Extract.ProximityIndex
import MilliCore.Vector.Composite
