import ServClient.Proofs.EventMemory
import ServClient.Proofs.EventFields
import ServClient.Proofs.Listening
import ServClient.Proofs.SemaPhoreLife
import ServClient.Proofs.LockFreeQueue
import ServClient.Proofs.LockFreeThreads
import ServClient.Proofs.EventQueue
import ServClient.Proofs.QueueDestroy
import ServClient.Proofs.Mutex
import ServClient.Proofs.SimpleThreads
import ServClient.Proofs.EventThreadStart
import ServClient.Proofs.EventDestroy
import ServClient.Proofs.PoolReuse
import ServClient.Proofs.PoolOrder
import ServClient.Proofs.PoolExits
import ServClient.Proofs.PoolLaunch
import ServClient.Proofs.AutoPtr
import ServClient.Proofs.ServingThread
import ServClient.Proofs.AcceptedSockets
import ServClient.Proofs.ClientThread
import ServClient.Proofs.ClientLife
import ServClient.Proofs.Server
import ServClient.Proofs.ServerDestroy
import ServClient.Proofs.AlarmTicks
import ServClient.Proofs.SchedulerIdle
import ServClient.Proofs.SharedEvents
import ServClient.Proofs.SocketConfig
import ServClient.Proofs.Socket
import ServClient.Proofs.ListSize
import ServClient.Proofs.ListCursors
import ServClient.Proofs.ScheduleTimes
import ServClient.Proofs.AcceptorThread
import ServClient.Proofs.AcceptorStop
import ServClient.Proofs.SocketTransfer
import ServClient.Proofs.SSLSocket
import ServClient.Proofs.SSLSession
import ServClient.Proofs.LibraryInterface
import ServClient.Proofs.SSLContexts
import ServClient.Proofs.HostWithPort
import ServClient.Proofs.DataInterpreter
import ServClient.Proofs.Client
import ServClient.Proofs.Alarm
import ServClient.Proofs.SmartPtr
import ServClient.Proofs.PtrCompare
import ServClient.Proofs.Observer
import ServClient.Proofs.Subject
import ServClient.Proofs.HandlerWork
import ServClient.Proofs.HandlerRun
import ServClient.Proofs.HandlerReplies
