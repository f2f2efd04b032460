import GoSse.Runtime
import GoSse.Joe
import GoSse.Provider
import GoSse.Spec
import GoSse.Cases
import GoSse.Invariant
import GoSse.Reach
import GoSse.Refinement
import GoSse.Handles
import GoSse.Race
import GoSse.Shutdown
import GoSse.Collect
import GoSse.Errors
import GoSse.Calls
import GoSse.Server
import GoSse.AfterReturn
import GoSse.Routing
