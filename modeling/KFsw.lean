import KFsw.Lib.Binary64
import KFsw.Lib.Bytes
import KFsw.Lib.CMemory
import KFsw.Lib.CNumber
import KFsw.Lib.CSource
import KFsw.Lib.CString
import KFsw.Lib.Checks
import KFsw.Lib.Crc
import KFsw.Lib.Cyclic
import KFsw.Lib.Fields
import KFsw.Lib.Framing
import KFsw.Lib.History
import KFsw.Lib.Hoare
import KFsw.Lib.Json
import KFsw.Lib.LittleEndian
import KFsw.Lib.Machine
import KFsw.Lib.Nesting
import KFsw.Lib.PyFloat
import KFsw.Lib.PyHex
import KFsw.Lib.PyText
import KFsw.Lib.Service
import KFsw.Lib.Stateful
import KFsw.Lib.Table
import KFsw.Lib.Volume
import KFsw.Lib.Xtce
import KFsw.Ground.Capture
import KFsw.Ground.Checksum
import KFsw.Ground.Collect
import KFsw.Ground.Crc32
import KFsw.Ground.Csp
import KFsw.Ground.Decode
import KFsw.Ground.Definitions
import KFsw.Ground.Gap
import KFsw.Ground.Kiss
import KFsw.Ground.LogDecode
import KFsw.Ground.Pipeline
import KFsw.Ground.Polling
import KFsw.Ground.Proxy
import KFsw.Ground.ProxyErrors
import KFsw.Ground.ProxyReplies
import KFsw.Ground.Recent
import KFsw.Ground.Report
import KFsw.Ground.ReportCheck
import KFsw.Ground.ReportContainer
import KFsw.Ground.ReportDefine
import KFsw.Ground.Requests
import KFsw.Ground.Sample
import KFsw.Ground.Serve
import KFsw.Ground.Store
import KFsw.Ground.Upstream
import KFsw.App.BootRestart
import KFsw.App.CommandDefinitions
import KFsw.App.CspLiveness
import KFsw.App.FtpDiagnostics
import KFsw.App.FtpVolume
import KFsw.App.Hk
import KFsw.App.HkClass
import KFsw.App.HkDefine
import KFsw.App.HkEntries
import KFsw.App.HkGrammar
import KFsw.App.HkNumbers
import KFsw.App.HkSample
import KFsw.App.Main
import KFsw.App.Param
import KFsw.App.ParamTable
import KFsw.App.ParamValue
import KFsw.App.RebootPin
import KFsw.App.ShellCommand
import KFsw.App.ShellHk
import KFsw.App.ShellParam
import KFsw.App.ShellRemexec
import KFsw.App.ShellSystem
import KFsw.App.StorageDiagnostics
import KFsw.Tools.F746Validate
import KFsw.Tools.IcdArgs
import KFsw.Tools.IcdCollect
import KFsw.Tools.IcdComments
import KFsw.Tools.IcdGuard
import KFsw.Tools.IcdMacros
import KFsw.Tools.IcdTree
