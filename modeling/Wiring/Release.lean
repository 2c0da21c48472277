import Wiring.Log

namespace Wiring

/-! Facts about this release of the engine. -/

def ping : String := "pong"

def version : String := "0.1.0"

end Wiring
