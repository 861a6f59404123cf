import JsonRpc.Json
import JsonRpc.Buffer
import JsonRpc.Arena
import JsonRpc.ArenaDebug
import JsonRpc.Scope
import JsonRpc.Shim
import JsonRpc.World
import JsonRpc.Response
import JsonRpc.Dispatch
import JsonRpc.Feed
import JsonRpc.Frame
import JsonRpc.Input
import JsonRpc.Interleaving
import JsonRpc.Wire
import JsonRpc.Reset
