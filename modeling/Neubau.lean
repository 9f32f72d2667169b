import Neubau.Modbus.Accounting
import Neubau.Modbus.Liveness
import Neubau.Modbus.Segmentation
import Neubau.Modbus.Stopping
import Neubau.Modbus.Containment
import Neubau.Bootstrap.Rediscovery
import Neubau.Sunspec.ReferenceWalk
import Neubau.Sunspec.NoSkip
import Neubau.Sunspec.DiscoveryEndpoints
import Neubau.Common.ConfigurationFile
import Neubau.Thing.Agreement
import Neubau.Common.PollingService
import Neubau.Common.PortScanOrder
import Neubau.Common.TimerBoundaries
import Neubau.Modbus.Restart
import Neubau.Shelly.UniqueIds
import Neubau.Mdns.Changes
import Neubau.Modbus.Acceptance
import Neubau.Sunspec.ChunkedRead
import Neubau.Sunspec.ScanBounds
import Neubau.Modbus.Coherence
import Neubau.Modbus.Reassembly
import Neubau.Modbus.Clients
import Neubau.Mdns.ServiceQuery
import Neubau.Common.Subnet
import Neubau.Common.TimerArithmetic
import Neubau.Webapp.ThingApi
import Neubau.Sunspec.SunspecString
import Neubau.Stream.Override
import Neubau.Shelly.Merging
import Neubau.Shelly.Creation
import Neubau.Mdns.Rejection
import Neubau.Stream.DelayLine
import Neubau.Modbus.Transmission
import Neubau.Modbus.Ordering
import Neubau.Stream.Blocks
import Neubau.Sunspec.SunspecModelParser
import Neubau.Sunspec.ElgrisMeter
import Neubau.Sunspec.ModelParsing
import Neubau.Modbus.Transactions
import Neubau.Bootstrap.FirstScan
import Neubau.Bootstrap.ChainCompletion
import Neubau.Sunspec.Attended
import Neubau.Common.Replacement
import Neubau.Bootstrap.Announcements
