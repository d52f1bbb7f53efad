import FastapiTurbo.Lib.Codec
import FastapiTurbo.Lib.Coroutine
import FastapiTurbo.Lib.Dict
import FastapiTurbo.Lib.Effects
import FastapiTurbo.Lib.Generator
import FastapiTurbo.Lib.File
import FastapiTurbo.Lib.Grouped
import FastapiTurbo.Lib.Json
import FastapiTurbo.Lib.Lists
import FastapiTurbo.Lib.Multimap
import FastapiTurbo.Lib.Pool
import FastapiTurbo.Lib.Radix
import FastapiTurbo.Lib.Search
import FastapiTurbo.Lib.Tagged
import FastapiTurbo.Lib.Tasks
import FastapiTurbo.Lib.Transducer
import FastapiTurbo.Lib.Transition
import FastapiTurbo.Lib.Utf8
import FastapiTurbo.Py
import FastapiTurbo.HandlerBridge
import FastapiTurbo.DoorSupport
import FastapiTurbo.MiddlewareWrap
import FastapiTurbo.MiddlewareFallback
import FastapiTurbo.Coercion
import FastapiTurbo.Extract
import FastapiTurbo.ExtractErrors
import FastapiTurbo.ExtractValidated
import FastapiTurbo.Introspection
import FastapiTurbo.HandleRequest
import FastapiTurbo.DependencyInputs
import FastapiTurbo.GeneratorTeardown
import FastapiTurbo.DelegatedHandler
import FastapiTurbo.WebSocketEntry
import FastapiTurbo.Streaming
import FastapiTurbo.StreamDelivery
import FastapiTurbo.StreamTrampoline
import FastapiTurbo.NoawaitVerdict
import FastapiTurbo.StreamTeardown
import FastapiTurbo.RouteCollection
import FastapiTurbo.MountDispatch
import FastapiTurbo.RouterTable
import FastapiTurbo.RouterConflicts
import FastapiTurbo.RouterDispatch
import FastapiTurbo.RouterAnswers
import FastapiTurbo.RouterSockets
import FastapiTurbo.WebSocketDoors
import FastapiTurbo.MountPrecedence
import FastapiTurbo.NotFoundFallback
import FastapiTurbo.MiddlewareNesting
import FastapiTurbo.DoorFingerprint
import FastapiTurbo.CapturedExceptions
import FastapiTurbo.Lifespans
import FastapiTurbo.StartupCycle
import FastapiTurbo.WebSocketInbound
import FastapiTurbo.WebSocketReceive
import FastapiTurbo.WebSocketEnd
import FastapiTurbo.WebSocketState
import FastapiTurbo.WebSocketOutbound
import FastapiTurbo.WebSocketOrder
import FastapiTurbo.WebSocketFlush
import FastapiTurbo.WebSocketScripts
import FastapiTurbo.Sessions
import FastapiTurbo.ResponseHeaders
import FastapiTurbo.JsonWriters
import FastapiTurbo.Lib.Intervals
import FastapiTurbo.Lib.JsonText
import FastapiTurbo.Lib.JsonCompact
import FastapiTurbo.BackgroundDrain
import FastapiTurbo.AsyncWorker
import FastapiTurbo.AsyncWorkerGates
import FastapiTurbo.SubmitGate
import FastapiTurbo.InlineJob
import FastapiTurbo.RedisMux
import FastapiTurbo.RedisMuxWaiters
import FastapiTurbo.RedisMuxReplies
import FastapiTurbo.RedisMuxSelect
import FastapiTurbo.Multipart
import FastapiTurbo.MultipartEncoding
import FastapiTurbo.MultipartRoundTrip
import FastapiTurbo.UploadFile
import FastapiTurbo.Cluster
import FastapiTurbo.ClusterCounters
import FastapiTurbo.ClusterList
import FastapiTurbo.ClusterPick
import FastapiTurbo.OptionsAllow
import FastapiTurbo.ExitStack
import FastapiTurbo.AsyncGenBridge
import FastapiTurbo.SequenceParams
import FastapiTurbo.BodyParam
import FastapiTurbo.InjectedResponse
import FastapiTurbo.ByteRanges
import FastapiTurbo.RangeBody
import FastapiTurbo.JsonRoundTrip
import FastapiTurbo.ExceptionLookup
import FastapiTurbo.HostDispatch
import FastapiTurbo.SlashRedirect
import FastapiTurbo.ClusterTurns
import FastapiTurbo.TrustedHost
import FastapiTurbo.WebSocketCoalesce
import FastapiTurbo.StreamFairness
import FastapiTurbo.LifecycleOrder
import FastapiTurbo.MultipartBounds
import FastapiTurbo.RespReader
import FastapiTurbo.Lib.Ranked
import FastapiTurbo.RouteRegistration
import FastapiTurbo.HttpDate
