import BslInsight.Text.CodeRange

/-!
# Marks

The general category *mark* of Unicode 17: characters that change the one before them.  Most of them
take no space of their own.
-/

namespace BslInsight

def nonspacingRanges : List (Nat × Nat) :=
  rangesFrom 0 (tableNumbers "
  .CO.1n.4S6.4Gi20212120.1BAnKH0.1e6353123a0VQ.1UAx8A0P3282224i2y8hN2Vu020575046B1U0x05390L1R031w051
  513240V140C1w0542150L1N520x030239081C1V0.100D0p040u022622381C1U0x0307061L1T1w15390L1U0.1B08220.1T0
  36D7.1b038C6.1C1S02020uD24216A2ZA0.1f3252131Q152H3E03170G0.BM2.FH2U1V1V1.13126903AA0k220.1u1Z0.1v2
  51A072.3Y130x0262020377930nj3BL3n0242060f8D1X33122v0214022x731.2T22C26507041.3D.11.BdW.nX2.2I0.1ZV
  .8x3.1k1:7qX329X1.1J1.4P04050Q160.2S1RHE0d7QAl2n03331e0.1653131D090m0q022316120h190.3r03050:5Gz0
  .BuFHF.Fi0.3f0.2Q4.Qx22163f250.2g1.9G3.144.581.1G5.19Ao3.200tEg031B2o33180.102b427.110D1r8B330.1Y2
  30217030.2Y047M1w140c644.195E02020F1.1O73220O0.1N5205121.3r37121S1.1O73021.1j0203520.1e0203324.4C8
  21.4912050.2L33150X9f53390A532lC21.3D02220.3G62520.1LL362121.1z540212620.1B14020.5c1C1r46020O0:1OI
  07E:2yvB42.eH4y6.Gv0.123.1K0:56n1:1Duj3M.8n2I736V3.2P2.Vws5n90F0N42E.Lx62G362124.1d0.2b6.640.103
  .8D3.471.3w0308160.7f6.1m6;3KAI.3r".toList)

def spacingMarkRanges : List (Nat × Nat) :=
  rangesFrom 0 (tableNumbers "
  .bD0u0329321p1x27131B0i0x2.150x29021s1x0207131B0.1f1214222B0g2.103.101x0243121A1T0F1x26222B0h1.1E2
  77J1.5L1.120.2m1507031Q1B236M13530B2.Qj0V0.2608721.5b3325125.3d1x020A02195.2M0n0602421.100V05130z0
  322041n791.2m0M0:1HL1:7zI130.1R1pF.2J1m0n15132.1n131P0k020.1m03160.3q1212120:6fE020.240k251.1s0P1y
  0n2A1E0.1W24120.2l2W1x1233132A0B1.1N28030232120.1e29140.1j2702330.3q27330.1q29120.1m02170.1g02150
  .4E2A0.40521503020.2J29350.1N0U1.110.3G04020.3E0F0.1j08030.3S45120.5f1D0n19120:4O92.wPs.1h1:6UO175".toList)

def isNonspacing (c : Char) : Bool :=
  inRanges nonspacingRanges c.toNat

def isMark (c : Char) : Bool :=
  isNonspacing c || inRanges spacingMarkRanges c.toNat

end BslInsight
