import AutoTest.CString
import AutoTest.Strtok
import AutoTest.Program
import AutoTest.Network
import AutoTest.Slots
import AutoTest.KeyMap
import AutoTest.Command
import AutoTest.Handlers
import AutoTest.Script
import AutoTest.ScriptMeaning
import AutoTest.ScriptBounds
import AutoTest.Readers
import AutoTest.Syslog
import AutoTest.World
import AutoTest.Tokeniser
import AutoTest.ScriptFile
import AutoTest.Record
import AutoTest.Registry
import AutoTest.Ownership
import AutoTest.Attribution
import AutoTest.RegistryMap
import AutoTest.KeyEvents
import AutoTest.Tokens
import AutoTest.History
import AutoTest.Isolation
import AutoTest.Footprint
import AutoTest.Process
import AutoTest.ChangeIp
import AutoTest.Sections
import AutoTest.Mutex
import AutoTest.HandOver
import AutoTest.Delivery
import AutoTest.LogScan
import AutoTest.RandomValue
import AutoTest.StartIdle
import AutoTest.Gates
import AutoTest.Payload
import AutoTest.ByteQueue
import AutoTest.QueueHop
import AutoTest.SyslogPort
import AutoTest.Release
import AutoTest.RandomKey
import AutoTest.Capacity
import AutoTest.Completion
import AutoTest.Buffers
import AutoTest.LogLine
import AutoTest.HandleTable
import AutoTest.Roster
import AutoTest.Handles
import AutoTest.Staff
import AutoTest.Copies
import AutoTest.ThreadHandles
import AutoTest.Recursion
import AutoTest.Nesting
import AutoTest.Console
import AutoTest.Simulation
import AutoTest.Directory
import AutoTest.Progress
import AutoTest.ScriptText
import AutoTest.Appends
import AutoTest.Journal
import AutoTest.Shutdown
import AutoTest.Numerals
import AutoTest.Observation
import AutoTest.Report
import AutoTest.Deferral
import AutoTest.Unnesting
