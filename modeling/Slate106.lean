import Slate106.KermitFrame
import Slate106.KermitDamaged
import Slate106.KermitNak
import Slate106.KermitRequest
import Slate106.KermitReadOnly
import Slate106.KermitKinds
import Slate106.KermitListing
import Slate106.KermitFields
import Slate106.KermitFiles
import Slate106.BoundedQueue
import Slate106.Fifo
import Slate106.FifoCapacity
import Slate106.FifoBounds
import Slate106.BleCentral
import Slate106.LengthPrefixed
import Slate106.BleAdvertising
import Slate106.ExtendedRegex
import Slate106.BleAddress
import Slate106.MldpReceive
import Slate106.MldpSend
import Slate106.BleConnection
import Slate106.BitCrc
import Slate106.Crc32File
import Slate106.KermitGet
import Slate106.KermitTransfer
import Slate106.KermitAnnounce
import Slate106.KermitSpelling
import Slate106.KermitWhole
import Slate106.KermitRequested
import Slate106.KermitReadErrors
import Slate106.KermitNames
import Slate106.KermitTrace
import Slate106.KermitConfined
import Slate106.KermitRooted
import Slate106.KermitPolls
import Slate106.BleWait
import Slate106.KermitResync
import Slate106.KermitTimeouts
import Slate106.KermitRetries
import Slate106.KermitFraming
import Slate106.KermitGetName
import Slate106.KermitSendMap
import Slate106.JsonText
import Slate106.KermitDirData
import Slate106.KermitBlockChecks
import Slate106.KermitDeclared
import Slate106.KermitProbe
import Slate106.KermitInstalled
import Slate106.KermitDecodeReads
import Slate106.KermitAttributes
import Slate106.KermitGattrReads
import Slate106.KermitSattr
import Slate106.KermitTextMode
import Slate106.KermitEighth
import Slate106.KermitEndMark
import Slate106.KermitProperNames
import Slate106.KermitShift
import Slate106.KermitOversize
import Slate106.KermitDirLength
import Slate106.KermitInPlace
import Slate106.KermitStopWait
import Slate106.LossyLink
import Slate106.KermitHears
import Slate106.KermitAgreed
import Slate106.KermitStores
import Slate106.KermitReceiver
import Slate106.KermitTaken
import Slate106.KermitOffer
import Slate106.KermitOpening
import Slate106.KermitPeers
import Slate106.KermitLossyGet
import Slate106.KermitPromptGet
import Slate106.BtUuid
import Slate106.RangeScan
import Slate106.GattDb
import Slate106.GattDbRuns
import Slate106.GattMldp
import Slate106.GattServer
import Slate106.GattServed
import Slate106.GattDiscovery
import Slate106.GattCollected
import Slate106.GattServicesFound
import Slate106.GattAttributesFound
