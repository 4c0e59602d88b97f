import Rtl8189.FieldWidths
import Rtl8189.ApXmit
import Rtl8189.BlockAck
import Rtl8189.Defrag
import Rtl8189.PortControl
import Rtl8189.PowerSave
import Rtl8189.PacketNumber
import Rtl8189.SdioRecv
import Rtl8189.TimBitmap
import Rtl8189.XmitPool
import Rtl8189.XmitQueue
import Rtl8189.Coalesce
import Rtl8189.MlmeProtect
import Rtl8189.RecvConserve
import Rtl8189.HashBuckets
import Rtl8189.StaTable
import Rtl8189.ApBss
import Rtl8189.ApMoves
import Rtl8189.AsocLists
import Rtl8189.AidTable
import Rtl8189.BssCaps
import Rtl8189.SharedKey
import Rtl8189.AesDecipher
import Rtl8189.Decryptor
import Rtl8189.EfusePacket
import Rtl8189.EfuseRead
import Rtl8189.EfuseWrite
import Rtl8189.EfuseMap
import Rtl8189.EfuseRun
import Rtl8189.EfuseAgree
import Rtl8189.FileTree
import Rtl8189.HdmiTestBoot
import Rtl8189.HdmiRollback
import Rtl8189.HdmiHistory
import Rtl8189.HdmiFailure
import Rtl8189.HdmiRace
import Rtl8189.Michael
import Rtl8189.TkipXmit
import Rtl8189.TkipRoundTrip
import Rtl8189.AesCipher
import Rtl8189.Bip
import Rtl8189.RecvBufPool
import Rtl8189.TxAggregate
import Rtl8189.TxPages
import Rtl8189.Hlist
import Rtl8189.Nat25Table
import Rtl8189.Nat25Db
import Rtl8189.Nat25Shortcut
import Rtl8189.PowerHandshake
import Rtl8189.CmdQueue
import Rtl8189.RateAdaptive
import Rtl8189.ScanTable
import Rtl8189.Issuer
import Rtl8189.TxNumbers
import Rtl8189.KeyCam
import Rtl8189.KeyReadback
import Rtl8189.ConnectSettings
import Rtl8189.SiteSurvey
import Rtl8189.GoNego
import Rtl8189.GroupInfo
import Rtl8189.AssocReq
import Rtl8189.Semaphore
import Rtl8189.XmitBufSema
import Rtl8189.OsQueue
import Rtl8189.BeaconInfo
import Rtl8189.AccessTrace
import Rtl8189.RecvBounds
import Rtl8189.RemainOnChannel
import Rtl8189.MessageBuffer
import Rtl8189.AggregateBounds
import Rtl8189.DefragBounds
import Rtl8189.MsduDelivery
import Rtl8189.Decache
import Rtl8189.LastSeen
import Rtl8189.BufferWalk
import Rtl8189.WalkCalls
import Rtl8189.AttrWalk
import Rtl8189.IeLookup
import Rtl8189.ChallengeBounds
import Rtl8189.ElementWalk
import Rtl8189.ElemList
import Rtl8189.IeRemove
import Rtl8189.AccessList
import Rtl8189.TimElement
import Rtl8189.BeaconEdit
import Rtl8189.BeaconTim
import Rtl8189.BeaconAdd
import Rtl8189.RateFilter
import Rtl8189.RsnInfo
import Rtl8189.P2pAttrs
import Rtl8189.P2pMerge
import Rtl8189.PacketClass
import Rtl8189.AccessProg
import Rtl8189.IeSearch
import Rtl8189.CollectBss
import Rtl8189.CollectBounds
import Rtl8189.SsidAbsorb
import Rtl8189.Nat25Pppoe
import Rtl8189.Nat25Bounds
import Rtl8189.InternetChecksum
import Rtl8189.Nat25Checksum
import Rtl8189.RsnSync
import Rtl8189.WmmAppend
import Rtl8189.Lockstep
import Rtl8189.BcnKeys
import Rtl8189.BeaconChange
import Rtl8189.SparseMap
import Rtl8189.CircBuf
import Rtl8189.ChannelList
import Rtl8189.EfuseOffload
import Rtl8189.McastUnicast
import Rtl8189.AttrCopy
import Rtl8189.P2pHandlers
import Rtl8189.AssocCaps
import Rtl8189.ByteBus
import Rtl8189.SdioAccess
import Rtl8189.LimitText
import Rtl8189.LimitTable
import Rtl8189.LimitFile
import Rtl8189.LimitDoc
import Rtl8189.PmkidCache
import Rtl8189.PsDeny
import Rtl8189.EmmcLimits
import Rtl8189.RoamTarget
import Rtl8189.RegBytes
import Rtl8189.TxPowerAgc
import Rtl8189.TxPowerUser
import Rtl8189.ShellText
import Rtl8189.StateQuote
import Rtl8189.VolumeFiles
import Rtl8189.HdmiOsDisk
import Rtl8189.WfdRemove
import Rtl8189.MgmtTx
import Rtl8189.AwaitSeq
import Rtl8189.PowerSeq
import Rtl8189.ClientJoin
import Rtl8189.DataHop
import Rtl8189.EtherSegment
import Rtl8189.H2cMailbox
import Rtl8189.StationIds
