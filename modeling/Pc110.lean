import Pc110.UnpackEncode
import Pc110.DiskAddressing
import Pc110.DiskGeometry
import Pc110.ErrorLog
import Pc110.Transparency
import Pc110.SetupRestart
import Pc110.ModeSetDetour
import Pc110.HitCounters
import Pc110.ChipsetSnapshot
import Pc110.LooseCall
import Pc110.Int13Return
import Pc110.RegisterHistory
import Pc110.EramPolicy
import Pc110.SetupLaunch
import Pc110.Checksum
import Pc110.FontRom
import Pc110.MemoryPattern
import Pc110.BiosImage
import Pc110.PartitionEntry
import Pc110.LooseRestart
import Pc110.SegLoad
import Pc110.RealIret
import Pc110.DetourReturn
import Pc110.BootOnce
import Pc110.BlockCopy
import Pc110.UnpackTables
import Pc110.ReadCode
import Pc110.ResetTrace
import Pc110.ResetRequests
import Pc110.Logging
import Pc110.ExecLoop
import Pc110.BootChain
import Pc110.FloppyBoot
import Pc110.FloppyExit
import Pc110.LooseNesting
