import UwbCore.Lib.Run
import UwbCore.Lib.Table
import UwbCore.Lib.Log
import UwbCore.Lib.Bytes
import UwbCore.Panmaster.Basic
import UwbCore.Panmaster.Request
import UwbCore.Panmaster.Served
import UwbCore.Panmaster.Save
import UwbCore.Panmaster.Fcb
import UwbCore.Panmaster.Slot
import UwbCore.Panmaster.Ident
import UwbCore.Panmaster.FirstSeen
import UwbCore.Panmaster.Load
import UwbCore.Panmaster.Compress
import UwbCore.Panmaster.Sort
import UwbCore.Panmaster.Sorted
import UwbCore.Panmaster.AgreeInv
import UwbCore.Panmaster.Agree
import UwbCore.Panmaster.Interleave
import UwbCore.Panmaster.RequestSteps
import UwbCore.Panmaster.TornSave
import UwbCore.Panmaster.Atomic
import UwbCore.Transport.Mbuf
import UwbCore.Transport.Basic
import UwbCore.Transport.Framing
import UwbCore.Transport.Receive
import UwbCore.Transport.Dequeue
import UwbCore.Transport.RetryInv
import UwbCore.Transport.RetryCall
import UwbCore.Transport.Retry
import UwbCore.Lib.Ring
import UwbCore.Rng.Basic
import UwbCore.Rng.Handlers
import UwbCore.Rng.Handled
import UwbCore.Rng.Complete
import UwbCore.Rng.Header
import UwbCore.Rng.Tof
import UwbCore.Rng.Range
import UwbCore.Rng.Exchange
import UwbCore.Rng.Stages
import UwbCore.Rng.Integrity
import UwbCore.Lib.Word
import UwbCore.Ccp.Basic
import UwbCore.Ccp.Stations
import UwbCore.Ccp.Relay
import UwbCore.Ccp.Coast
import UwbCore.Ccp.Master
import UwbCore.Lib.Bits
import UwbCore.Nrng.Slots
import UwbCore.Nrng.Basic
import UwbCore.Nrng.Ranges
import UwbCore.Nrng.Address
import UwbCore.Nrng.Rounds
import UwbCore.Transport.Window
import UwbCore.Rng.Stamps
import UwbCore.Rng.Outcomes
import UwbCore.Rng.FreshRun
import UwbCore.Rng.Fresh
import UwbCore.Rng.AckStages
import UwbCore.Rng.Ack
import UwbCore.Rng.Semaphore
import UwbCore.Lib.Scan
import UwbCore.Transport.Length
import UwbCore.Nmgr.Basic
import UwbCore.Pan.Receive
import UwbCore.Panmaster.Lease
import UwbCore.Lib.Hex
import UwbCore.Panmaster.File
import UwbCore.Panmaster.RoundTrip
import UwbCore.Panmaster.Backends
import UwbCore.Pan.Lease
import UwbCore.Nmgr.Relay
import UwbCore.Nmgr.Ownership
import UwbCore.Bota.Basic
import UwbCore.Bota.Upload
import UwbCore.Lib.Tiling
import UwbCore.Bota.Packet
import UwbCore.Bota.Arrival
import UwbCore.Bota.Transfer
import UwbCore.Lib.Circle
import UwbCore.Rtdoa.Basic
import UwbCore.Rtdoa.Collision
import UwbCore.Ccp.Epoch
import UwbCore.Ccp.Valid
import UwbCore.Lib.Cstr
import UwbCore.Uwbcfg.Basic
import UwbCore.Lib.Turns
import UwbCore.Survey.Rotation
import UwbCore.Lib.Memory
import UwbCore.Json.Basic
import UwbCore.Ccp.Json
import UwbCore.Rng.Json
import UwbCore.Tdma.Basic
import UwbCore.Tdma.Timers
import UwbCore.Lib.Trunc
import UwbCore.Rtdoa.Tag
import UwbCore.Rtdoa.Pair
import UwbCore.Wcs.Basic
import UwbCore.Wcs.LowWord
import UwbCore.Wcs.Uniform
import UwbCore.Tdma.Slots
import UwbCore.Rtdoa.Times
import UwbCore.Rtdoa.Flood
import UwbCore.Rtdoa.Window
import UwbCore.Json.Buffer
import UwbCore.Rng.Frames
import UwbCore.Lib.Calls
import UwbCore.Chrdev.Basic
import UwbCore.Chrdev.Steps
import UwbCore.Chrdev.Queue
import UwbCore.Chrdev.Retry
import UwbCore.Lib.Slist
import UwbCore.Mac.Registry
import UwbCore.Dpl.Mempool
import UwbCore.Lib.Decimal
import UwbCore.Json.Decode
import UwbCore.Json.Moves
import UwbCore.Json.Ends
import UwbCore.Json.Encode
import UwbCore.Lib.JsonText
import UwbCore.Json.Render
import UwbCore.Json.Commas
import UwbCore.Json.Lines
import UwbCore.Json.Elements
import UwbCore.Json.Attributes
import UwbCore.Json.Text
import UwbCore.Json.Quoted
import UwbCore.Dpl.Headers
import UwbCore.Dpl.Reading
