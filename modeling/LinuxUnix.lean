import LinuxUnix.Foundation.Allocation
import LinuxUnix.Foundation.ByteOrder
import LinuxUnix.Foundation.CMemory
import LinuxUnix.Foundation.Cells
import LinuxUnix.Foundation.CrlfLines
import LinuxUnix.Foundation.Decimal
import LinuxUnix.Foundation.Delivery
import LinuxUnix.Foundation.DescriptorTable
import LinuxUnix.Foundation.Forest
import LinuxUnix.Foundation.FormattedNumbers
import LinuxUnix.Foundation.Framing
import LinuxUnix.Foundation.History
import LinuxUnix.Foundation.Iteration
import LinuxUnix.Foundation.Keyed
import LinuxUnix.Foundation.LineInput
import LinuxUnix.Foundation.MailText
import LinuxUnix.Foundation.Monitor
import LinuxUnix.Foundation.NumberInput
import LinuxUnix.Foundation.OpenFiles
import LinuxUnix.Foundation.Paths
import LinuxUnix.Foundation.Pipe
import LinuxUnix.Foundation.Prefixes
import LinuxUnix.Foundation.ProcessCount
import LinuxUnix.Foundation.Rewriting
import LinuxUnix.Foundation.Semaphore
import LinuxUnix.Foundation.SignalHandling
import LinuxUnix.Foundation.Tokens
import LinuxUnix.Foundation.Transfer
import LinuxUnix.Foundation.TransitionSystem
import LinuxUnix.Files.RecordLock
import LinuxUnix.Files.CopyFile
import LinuxUnix.Files.Backward
import LinuxUnix.Files.PasName
import LinuxUnix.Files.Trash
import LinuxUnix.Files.TreeListing
import LinuxUnix.Files.WriteFile
import LinuxUnix.Files.DupFd
import LinuxUnix.Devices.CdRom
import LinuxUnix.Devices.CdContent
import LinuxUnix.Processes.Daemon
import LinuxUnix.Processes.ForkTree
import LinuxUnix.Signals.SignalSync
import LinuxUnix.Signals.Alternation
import LinuxUnix.Signals.PingPong
import LinuxUnix.Signals.SignalMenu
import LinuxUnix.Ipc.CriticalSection
import LinuxUnix.Ipc.SemaphoreSetup
import LinuxUnix.Ipc.Mailbox
import LinuxUnix.Ipc.MailboxExchange
import LinuxUnix.Ipc.MailboxDeparture
import LinuxUnix.Ipc.PrintJob
import LinuxUnix.Ipc.PollingFifo
import LinuxUnix.Ipc.PrintServer
import LinuxUnix.Ipc.PrintService
import LinuxUnix.Ipc.MessageServer
import LinuxUnix.Ipc.MessageText
import LinuxUnix.Ipc.MessageClient
import LinuxUnix.Ipc.LoginBroadcast
import LinuxUnix.Ipc.LoginRoster
import LinuxUnix.Ipc.LoginDelivery
import LinuxUnix.Ipc.WordFilter
import LinuxUnix.Ipc.WordFilterLines
import LinuxUnix.Ipc.MailEncoder
import LinuxUnix.Ipc.FilterPipes
import LinuxUnix.Ipc.FilterPipeline
import LinuxUnix.Ipc.TextCollection
import LinuxUnix.Ipc.BlockPipe
import LinuxUnix.Ipc.LinePipe
import LinuxUnix.Ipc.FifoEcho
import LinuxUnix.Ipc.FifoReply
import LinuxUnix.Network.InternetAddress
import LinuxUnix.Network.Datagrams
import LinuxUnix.Network.MultiServer
import LinuxUnix.Network.MultiServerTable
import LinuxUnix.Network.MultiServerRound
import LinuxUnix.Network.MultiServerDeparture
import LinuxUnix.Network.MultiServerOverload
import LinuxUnix.Network.LineProtocol
import LinuxUnix.Network.LineProtocolRound
import LinuxUnix.Network.LineProtocolDelivery
import LinuxUnix.Network.FileTransfer
import LinuxUnix.Network.FileTransferClient
import LinuxUnix.Network.FileTransferDelivery
import LinuxUnix.Network.FileTransferHistory
import LinuxUnix.Network.FileTransferPaths
import LinuxUnix.Network.FileTransferBounds
import LinuxUnix.Network.ForkingServer
import LinuxUnix.Network.ForkingServerReaping
import LinuxUnix.Network.ForkingServerDescriptors
import LinuxUnix.Network.ThreadedServer
import LinuxUnix.Network.ThreadedServerDescriptors
import LinuxUnix.Network.HttpToken
import LinuxUnix.Network.HttpNthToken
import LinuxUnix.Network.HttpServer
import LinuxUnix.Network.HttpHeader
import LinuxUnix.Network.HttpBounds
import LinuxUnix.Network.HttpResponse
import LinuxUnix.Network.HttpConnection
import LinuxUnix.Network.HttpRequest
import LinuxUnix.Network.HttpCalls
import LinuxUnix.Network.HttpPaths
import LinuxUnix.Network.HttpFile
import LinuxUnix.Network.HttpMessage
import LinuxUnix.Network.HttpKeepAlive
import LinuxUnix.Network.PartialWrites
import LinuxUnix.Network.Chat
import LinuxUnix.Network.ChatContent
import LinuxUnix.Network.ChatRounds
import LinuxUnix.Network.ChatTogether
import LinuxUnix.Threads.Consumers
import LinuxUnix.Threads.ConsumersWaiting
import LinuxUnix.Threads.ConsumersReports
import LinuxUnix.Threads.WakeUpChain
import LinuxUnix.Threads.WakeUpChainDeadlock
import LinuxUnix.Threads.SharedFile
import LinuxUnix.Threads.SemaphoreHandover
import LinuxUnix.Threads.ThreadFiles
import LinuxUnix.Threads.ThreadArguments
import LinuxUnix.Terminal.KeyStroke
import LinuxUnix.Terminal.KeyDecoding
import LinuxUnix.Terminal.Menus
import LinuxUnix.Terminal.Getch
