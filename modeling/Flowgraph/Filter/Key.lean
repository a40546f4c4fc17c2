import Flowgraph.Value

/-!
# Design keys

What the taps of a filter were designed from: names and numbers.  Numbers are
compared by value, so a key with a NaN differs from every key.
-/

namespace Flowgraph

namespace Filter

abbrev DesignKey := List Key

end Filter

end Flowgraph
