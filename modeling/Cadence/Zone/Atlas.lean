import Cadence.Zone.Table

/-!
An atlas of some zones, by their tables. These hold for the years 2010 to 2031, so that a program
has the atlas for such years only.
-/

namespace Cadence.Atlas

open ZoneTable (ofDigits)

def utc : ZoneTable :=
  ofDigits "UTC" 0 []

def newYork : ZoneTable :=
  ofDigits "America/New_York" (-18000)
    [(20100314070000, -14400), (20101107060000, -18000), (20110313070000, -14400),
      (20111106060000, -18000), (20120311070000, -14400), (20121104060000, -18000),
      (20130310070000, -14400), (20131103060000, -18000), (20140309070000, -14400),
      (20141102060000, -18000), (20150308070000, -14400), (20151101060000, -18000),
      (20160313070000, -14400), (20161106060000, -18000), (20170312070000, -14400),
      (20171105060000, -18000), (20180311070000, -14400), (20181104060000, -18000),
      (20190310070000, -14400), (20191103060000, -18000), (20200308070000, -14400),
      (20201101060000, -18000), (20210314070000, -14400), (20211107060000, -18000),
      (20220313070000, -14400), (20221106060000, -18000), (20230312070000, -14400),
      (20231105060000, -18000), (20240310070000, -14400), (20241103060000, -18000),
      (20250309070000, -14400), (20251102060000, -18000), (20260308070000, -14400),
      (20261101060000, -18000), (20270314070000, -14400), (20271107060000, -18000),
      (20280312070000, -14400), (20281105060000, -18000), (20290311070000, -14400),
      (20291104060000, -18000), (20300310070000, -14400), (20301103060000, -18000),
      (20310309070000, -14400), (20311102060000, -18000)]

def usEastern : ZoneTable :=
  { newYork with name := "US/Eastern" }

def london : ZoneTable :=
  ofDigits "Europe/London" 0
    [(20100328010000, 3600), (20101031010000, 0), (20110327010000, 3600), (20111030010000, 0),
      (20120325010000, 3600), (20121028010000, 0), (20130331010000, 3600), (20131027010000, 0),
      (20140330010000, 3600), (20141026010000, 0), (20150329010000, 3600), (20151025010000, 0),
      (20160327010000, 3600), (20161030010000, 0), (20170326010000, 3600), (20171029010000, 0),
      (20180325010000, 3600), (20181028010000, 0), (20190331010000, 3600), (20191027010000, 0),
      (20200329010000, 3600), (20201025010000, 0), (20210328010000, 3600), (20211031010000, 0),
      (20220327010000, 3600), (20221030010000, 0), (20230326010000, 3600), (20231029010000, 0),
      (20240331010000, 3600), (20241027010000, 0), (20250330010000, 3600), (20251026010000, 0),
      (20260329010000, 3600), (20261025010000, 0), (20270328010000, 3600), (20271031010000, 0),
      (20280326010000, 3600), (20281029010000, 0), (20290325010000, 3600), (20291028010000, 0),
      (20300331010000, 3600), (20301027010000, 0), (20310330010000, 3600), (20311026010000, 0)]

def berlin : ZoneTable :=
  ofDigits "Europe/Berlin" 3600
    [(20100328010000, 7200), (20101031010000, 3600), (20110327010000, 7200), (20111030010000, 3600),
      (20120325010000, 7200), (20121028010000, 3600), (20130331010000, 7200),
      (20131027010000, 3600), (20140330010000, 7200), (20141026010000, 3600),
      (20150329010000, 7200), (20151025010000, 3600), (20160327010000, 7200),
      (20161030010000, 3600), (20170326010000, 7200), (20171029010000, 3600),
      (20180325010000, 7200), (20181028010000, 3600), (20190331010000, 7200),
      (20191027010000, 3600), (20200329010000, 7200), (20201025010000, 3600),
      (20210328010000, 7200), (20211031010000, 3600), (20220327010000, 7200),
      (20221030010000, 3600), (20230326010000, 7200), (20231029010000, 3600),
      (20240331010000, 7200), (20241027010000, 3600), (20250330010000, 7200),
      (20251026010000, 3600), (20260329010000, 7200), (20261025010000, 3600),
      (20270328010000, 7200), (20271031010000, 3600), (20280326010000, 7200),
      (20281029010000, 3600), (20290325010000, 7200), (20291028010000, 3600),
      (20300331010000, 7200), (20301027010000, 3600), (20310330010000, 7200),
      (20311026010000, 3600)]

def sydney : ZoneTable :=
  ofDigits "Australia/Sydney" 39600
    [(20100403160000, 36000), (20101002160000, 39600), (20110402160000, 36000),
      (20111001160000, 39600), (20120331160000, 36000), (20121006160000, 39600),
      (20130406160000, 36000), (20131005160000, 39600), (20140405160000, 36000),
      (20141004160000, 39600), (20150404160000, 36000), (20151003160000, 39600),
      (20160402160000, 36000), (20161001160000, 39600), (20170401160000, 36000),
      (20170930160000, 39600), (20180331160000, 36000), (20181006160000, 39600),
      (20190406160000, 36000), (20191005160000, 39600), (20200404160000, 36000),
      (20201003160000, 39600), (20210403160000, 36000), (20211002160000, 39600),
      (20220402160000, 36000), (20221001160000, 39600), (20230401160000, 36000),
      (20230930160000, 39600), (20240406160000, 36000), (20241005160000, 39600),
      (20250405160000, 36000), (20251004160000, 39600), (20260404160000, 36000),
      (20261003160000, 39600), (20270403160000, 36000), (20271002160000, 39600),
      (20280401160000, 36000), (20280930160000, 39600), (20290331160000, 36000),
      (20291006160000, 39600), (20300406160000, 36000), (20301005160000, 39600),
      (20310405160000, 36000), (20311004160000, 39600)]

def lordHowe : ZoneTable :=
  ofDigits "Australia/Lord_Howe" 39600
    [(20100403150000, 37800), (20101002153000, 39600), (20110402150000, 37800),
      (20111001153000, 39600), (20120331150000, 37800), (20121006153000, 39600),
      (20130406150000, 37800), (20131005153000, 39600), (20140405150000, 37800),
      (20141004153000, 39600), (20150404150000, 37800), (20151003153000, 39600),
      (20160402150000, 37800), (20161001153000, 39600), (20170401150000, 37800),
      (20170930153000, 39600), (20180331150000, 37800), (20181006153000, 39600),
      (20190406150000, 37800), (20191005153000, 39600), (20200404150000, 37800),
      (20201003153000, 39600), (20210403150000, 37800), (20211002153000, 39600),
      (20220402150000, 37800), (20221001153000, 39600), (20230401150000, 37800),
      (20230930153000, 39600), (20240406150000, 37800), (20241005153000, 39600),
      (20250405150000, 37800), (20251004153000, 39600), (20260404150000, 37800),
      (20261003153000, 39600), (20270403150000, 37800), (20271002153000, 39600),
      (20280401150000, 37800), (20280930153000, 39600), (20290331150000, 37800),
      (20291006153000, 39600), (20300406150000, 37800), (20301005153000, 39600),
      (20310405150000, 37800), (20311004153000, 39600)]

def tokyo : ZoneTable :=
  ofDigits "Asia/Tokyo" 32400 []

def kathmandu : ZoneTable :=
  ofDigits "Asia/Kathmandu" 20700 []

def apia : ZoneTable :=
  ofDigits "Pacific/Apia" (-39600)
    [(20100926110000, -36000), (20110402140000, -39600), (20110924140000, -36000),
      (20111230100000, 50400), (20120331140000, 46800), (20120929140000, 50400),
      (20130406140000, 46800), (20130928140000, 50400), (20140405140000, 46800),
      (20140927140000, 50400), (20150404140000, 46800), (20150926140000, 50400),
      (20160402140000, 46800), (20160924140000, 50400), (20170401140000, 46800),
      (20170923140000, 50400), (20180331140000, 46800), (20180929140000, 50400),
      (20190406140000, 46800), (20190928140000, 50400), (20200404140000, 46800),
      (20200926140000, 50400), (20210403140000, 46800)]

def stJohns : ZoneTable :=
  ofDigits "America/St_Johns" (-12600)
    [(20100314033100, -9000), (20101107023100, -12600), (20110313033100, -9000),
      (20111106043000, -12600), (20120311053000, -9000), (20121104043000, -12600),
      (20130310053000, -9000), (20131103043000, -12600), (20140309053000, -9000),
      (20141102043000, -12600), (20150308053000, -9000), (20151101043000, -12600),
      (20160313053000, -9000), (20161106043000, -12600), (20170312053000, -9000),
      (20171105043000, -12600), (20180311053000, -9000), (20181104043000, -12600),
      (20190310053000, -9000), (20191103043000, -12600), (20200308053000, -9000),
      (20201101043000, -12600), (20210314053000, -9000), (20211107043000, -12600),
      (20220313053000, -9000), (20221106043000, -12600), (20230312053000, -9000),
      (20231105043000, -12600), (20240310053000, -9000), (20241103043000, -12600),
      (20250309053000, -9000), (20251102043000, -12600), (20260308053000, -9000),
      (20261101043000, -12600), (20270314053000, -9000), (20271107043000, -12600),
      (20280312053000, -9000), (20281105043000, -12600), (20290311053000, -9000),
      (20291104043000, -12600), (20300310053000, -9000), (20301103043000, -12600),
      (20310309053000, -9000), (20311102043000, -12600)]

def saoPaulo : ZoneTable :=
  ofDigits "America/Sao_Paulo" (-7200)
    [(20100221020000, -10800), (20101017030000, -7200), (20110220020000, -10800),
      (20111016030000, -7200), (20120226020000, -10800), (20121021030000, -7200),
      (20130217020000, -10800), (20131020030000, -7200), (20140216020000, -10800),
      (20141019030000, -7200), (20150222020000, -10800), (20151018030000, -7200),
      (20160221020000, -10800), (20161016030000, -7200), (20170219020000, -10800),
      (20171015030000, -7200), (20180218020000, -10800), (20181104030000, -7200),
      (20190217020000, -10800)]

def havana : ZoneTable :=
  ofDigits "America/Havana" (-18000)
    [(20100314050000, -14400), (20101031050000, -18000), (20110320050000, -14400),
      (20111113050000, -18000), (20120401050000, -14400), (20121104050000, -18000),
      (20130310050000, -14400), (20131103050000, -18000), (20140309050000, -14400),
      (20141102050000, -18000), (20150308050000, -14400), (20151101050000, -18000),
      (20160313050000, -14400), (20161106050000, -18000), (20170312050000, -14400),
      (20171105050000, -18000), (20180311050000, -14400), (20181104050000, -18000),
      (20190310050000, -14400), (20191103050000, -18000), (20200308050000, -14400),
      (20201101050000, -18000), (20210314050000, -14400), (20211107050000, -18000),
      (20220313050000, -14400), (20221106050000, -18000), (20230312050000, -14400),
      (20231105050000, -18000), (20240310050000, -14400), (20241103050000, -18000),
      (20250309050000, -14400), (20251102050000, -18000), (20260308050000, -14400),
      (20261101050000, -18000), (20270314050000, -14400), (20271107050000, -18000),
      (20280312050000, -14400), (20281105050000, -18000), (20290311050000, -14400),
      (20291104050000, -18000), (20300310050000, -14400), (20301103050000, -18000),
      (20310309050000, -14400), (20311102050000, -18000)]

def troll : ZoneTable :=
  ofDigits "Antarctica/Troll" 0
    [(20100328010000, 7200), (20101031010000, 0), (20110327010000, 7200), (20111030010000, 0),
      (20120325010000, 7200), (20121028010000, 0), (20130331010000, 7200), (20131027010000, 0),
      (20140330010000, 7200), (20141026010000, 0), (20150329010000, 7200), (20151025010000, 0),
      (20160327010000, 7200), (20161030010000, 0), (20170326010000, 7200), (20171029010000, 0),
      (20180325010000, 7200), (20181028010000, 0), (20190331010000, 7200), (20191027010000, 0),
      (20200329010000, 7200), (20201025010000, 0), (20210328010000, 7200), (20211031010000, 0),
      (20220327010000, 7200), (20221030010000, 0), (20230326010000, 7200), (20231029010000, 0),
      (20240331010000, 7200), (20241027010000, 0), (20250330010000, 7200), (20251026010000, 0),
      (20260329010000, 7200), (20261025010000, 0), (20270328010000, 7200), (20271031010000, 0),
      (20280326010000, 7200), (20281029010000, 0), (20290325010000, 7200), (20291028010000, 0),
      (20300331010000, 7200), (20301027010000, 0), (20310330010000, 7200), (20311026010000, 0)]

def casablanca : ZoneTable :=
  ofDigits "Africa/Casablanca" 0
    [(20100502000000, 3600), (20100807230000, 0), (20110403000000, 3600), (20110730230000, 0),
      (20120429020000, 3600), (20120720020000, 0), (20120820020000, 3600), (20120930020000, 0),
      (20130428020000, 3600), (20130707020000, 0), (20130810020000, 3600), (20131027020000, 0),
      (20140330020000, 3600), (20140628020000, 0), (20140802020000, 3600), (20141026020000, 0),
      (20150329020000, 3600), (20150614020000, 0), (20150719020000, 3600), (20151025020000, 0),
      (20160327020000, 3600), (20160605020000, 0), (20160710020000, 3600), (20161030020000, 0),
      (20170326020000, 3600), (20170521020000, 0), (20170702020000, 3600), (20171029020000, 0),
      (20180325020000, 3600), (20180513020000, 0), (20180617020000, 3600), (20190505020000, 0),
      (20190609020000, 3600), (20200419020000, 0), (20200531020000, 3600), (20210411020000, 0),
      (20210516020000, 3600), (20220327020000, 0), (20220508020000, 3600), (20230319020000, 0),
      (20230423020000, 3600), (20240310020000, 0), (20240414020000, 3600), (20250223020000, 0),
      (20250406020000, 3600), (20260215020000, 0), (20260322020000, 3600), (20270207020000, 0),
      (20270314020000, 3600), (20280123020000, 0), (20280305020000, 3600), (20290114020000, 0),
      (20290218020000, 3600), (20291230020000, 0), (20300210020000, 3600), (20301222020000, 0),
      (20310126020000, 3600), (20311214020000, 0)]

def pyongyang : ZoneTable :=
  ofDigits "Asia/Pyongyang" 32400
    [(20150814150000, 30600), (20180504150000, 32400)]

def etcGmtPlus5 : ZoneTable :=
  ofDigits "Etc/GMT+5" (-18000) []

def monrovia : ZoneTable :=
  ofDigits "Africa/Monrovia" (-2588)
    [(19190301004308, -2670), (19720107004430, 0)]

def tables : List ZoneTable :=
  [utc, newYork, usEastern, london, berlin, sydney, lordHowe, tokyo, kathmandu, apia, stJohns,
    saoPaulo, havana, troll, casablanca, pyongyang, etcGmtPlus5, monrovia]

instance : Atlas where
  find? name := (tables.find? (·.name == name)).map ZoneTable.named

end Cadence.Atlas
