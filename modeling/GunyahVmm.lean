import GunyahVmm.Dma.BounceProtocol
import GunyahVmm.Hypervisor.MemorySlots
import GunyahVmm.Hypervisor.GuestMemoryLayout
import GunyahVmm.Resources.AlignedSearch
import GunyahVmm.Virtio.EventIndex
import GunyahVmm.Virtio.PackedPositions
import GunyahVmm.Iommu.Session
import GunyahVmm.VmMemory.Ranges
import GunyahVmm.CrosFdt.OverlayFilter
import GunyahVmm.CrosFdt.ReservedMemory
import GunyahVmm.VirtioFs.Canonicalization
import GunyahVmm.VirtioKeyboard.PollSafety
import GunyahVmm.Pci.MsixDelivery
import GunyahVmm.Disk.SparseExpansion
import GunyahVmm.Disk.CompositeFlat
import GunyahVmm.Disk.GptHeaders
import GunyahVmm.Qcow.Header
import GunyahVmm.KeyValues.FirstField
import GunyahVmm.KeyValues.Strings
import GunyahVmm.VirtioFs.SubmittedChain
import GunyahVmm.Xhci.RingBuffer
import GunyahVmm.Xhci.EventRingSafety
import GunyahVmm.Virtio.BlockConfinement
import GunyahVmm.Pflash.ReadArray
import GunyahVmm.Pflash.QueryTable
import GunyahVmm.Pl061.Interrupts
import GunyahVmm.Sync.NeverStuck
import GunyahVmm.Swap.Contents
import GunyahVmm.FwCfg.Selection
import GunyahVmm.Disk.ZstdSafety
import GunyahVmm.VirtioScsi.ResponseBounds
import GunyahVmm.Virtio.ScsiReadOnly
import GunyahVmm.Iommu.Isolation
import GunyahVmm.Bus.Routing
import GunyahVmm.VirtioGpu.Blt
import GunyahVmm.PciHostBridge.Windows
import GunyahVmm.VolatileMemory.AllZero
import GunyahVmm.KernelLoader.LoadedRange
import GunyahVmm.Ext2.Arena
import GunyahVmm.Arch.CpuSet
import GunyahVmm.SecureBoot.SiPolicy
import GunyahVmm.Serial.Uart
import GunyahVmm.Swap.PresentList
