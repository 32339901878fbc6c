import PlcManager.FlatMemory
import PlcManager.Stuffing
import PlcManager.ShiftRegister
import PlcManager.Pcrc
import PlcManager.PcrcDivision
import PlcManager.UsiProtocol
import PlcManager.UsiTransmit
import PlcManager.UsiReceive
import PlcManager.UsiFrame
import PlcManager.UsiEncoder
import PlcManager.UsiDecoder
import PlcManager.UsiShifts
import PlcManager.UsiReceiver
import PlcManager.UsiRuns
import PlcManager.UsiRoundTrip
import PlcManager.UsiBufferBound
import PlcManager.UsiPartialWrite
import PlcManager.UsiLoopback
import PlcManager.UsiSoundness
import PlcManager.UsiLengths
import PlcManager.UsiResync
import PlcManager.UsiSend
import PlcManager.UsiGrammar
import PlcManager.UsiAgreement
import PlcManager.Dlmsotcp
import PlcManager.LinkedQueue
import PlcManager.Runs
import PlcManager.StopAndWait
import PlcManager.Paging
import PlcManager.DlmsotcpLists
import PlcManager.DlmsotcpPackets
import PlcManager.DlmsotcpConservation
import PlcManager.DlmsotcpOrder
import PlcManager.DlmsotcpConfirm
import PlcManager.DlmsEmu
import PlcManager.DlmsEmuSteps
import PlcManager.DlmsEmuTimers
import PlcManager.DlmsEmuCycle
import PlcManager.DlmsEmuThreads
import PlcManager.MngLayer
import PlcManager.MessageReader
import PlcManager.MessageLayout
import PlcManager.MessageWriter
import PlcManager.PrimeApi
import PlcManager.PrimeApiRouting
import PlcManager.PrimeApiBounds
import PlcManager.PrimeApiAcceptance
import PlcManager.PrimeApiRequests
import PlcManager.DlmsotcpSocket
import PlcManager.DlmsotcpSegments
import PlcManager.DlmsotcpNodes
import PlcManager.DlmsotcpFormat
import PlcManager.DlmsotcpParsing
import PlcManager.DlmsotcpSendable
import PlcManager.DlmsotcpBounds
import PlcManager.DlmsotcpView
import PlcManager.DlmsotcpAutoClose
import PlcManager.DlmsotcpPaging
import PlcManager.ListResponses
import PlcManager.SlotTable
import PlcManager.SocketHandler
import PlcManager.SocketDescriptors
import PlcManager.SocketListeners
import PlcManager.SocketClients
import PlcManager.Cli
import PlcManager.CliPrimeInfo
import PlcManager.UsiOutcome
import PlcManager.MngLayerMessages
import PlcManager.SlotQueue
import PlcManager.PrimeApiPointers
import PlcManager.PrimeApiPort
import PlcManager.CliCommands
import PlcManager.CliNodeVersions
import PlcManager.DlmsEmuBlocks
import PlcManager.DlmsEmuReplies
import PlcManager.DlmsEmuBounds
import PlcManager.DlmsEmuSearch
import PlcManager.TextLines
import PlcManager.XmlRep
import PlcManager.XmlNodelist
import PlcManager.XmlUpdate
import PlcManager.CliNodelist
import PlcManager.CliNodelistRun
import PlcManager.UsiHost
import PlcManager.UsiRedirect
import PlcManager.SnifferRelay
import PlcManager.DlmsotcpOutputs
import PlcManager.PrimeApiCommands
import PlcManager.Gateway
import PlcManager.GatewayDownlink
import PlcManager.DlmsEmuReport
import PlcManager.DlmsEmuReportFiles
import PlcManager.DlmsEmuReportArrays
import PlcManager.GatewayUplink
